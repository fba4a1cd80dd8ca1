import ThinrAgent.Proofs.Cycle
import ThinrAgent.Proofs.PolicyCommand
import ThinrAgent.Runtime.PollLoop

/-!
# `ThinrAgent.Proofs.PollLoop`: the load a poll thread puts on the server

A cycle requests at most one manifest and downloads at most one image (`pollCycle_atMost`), and
between two cycles there is a wait of ten minutes at least, whatever the settings file says in the
meantime. `poll_rate` is about whole runs of the thread: it bounds the cycles, the requests and the
downloads in every window of time, and every wait.
-/

set_option autoImplicit false

namespace ThinrAgent

open Effects

/-- The operation asks the server for a text. A cycle does so for the manifest only, so these are
the requests for manifests. -/
def SysOp.requestsManifest {β : Type} : SysOp β → Bool
  | httpGet _ => true
  | _ => false

/-- The operation fetches an image into a file. It is the expensive request: an image has megabytes,
a manifest a few hundred bytes. -/
def SysOp.downloads {β : Type} : SysOp β → Bool
  | httpDownload _ _ => true
  | _ => false

namespace PollOp

variable {β : Type}

/-- The same of an operation of the poll thread. The random number and the members of the poller
cost the server nothing. -/
def requestsManifest : PollOp β → Bool
  | host o => o.requestsManifest
  | uniform => false
  | members => false

/-- The same of an operation of the poll thread, with the operations on the host counted as they are
there. -/
def downloads : PollOp β → Bool
  | host o => o.downloads
  | uniform => false
  | members => false

/-- Every cycle that can read the settings loads the members once, and nothing else does. So the
loads in the log of a run count its cycles. -/
def isCycle : PollOp β → Bool
  | host _ => false
  | uniform => false
  | members => true

end PollOp

/-- What a cycle does once at most. The results of the module are about these three kinds of
operations, with one proof for all of them. -/
inductive Rationed {β : Type} : (PollOp β → Bool) → Prop where
  | manifest : Rationed PollOp.requestsManifest
  | download : Rationed PollOp.downloads
  | cycle : Rationed PollOp.isCycle

/-- Two cycles are ten minutes apart at least, in nanoseconds. It is the delay after a deferred
update, and the shortest of all. -/
def pollGap : Nat := 600 * 1000000000

/-- No wait is longer than a week and ten percent, in nanoseconds. The interval is clamped to 168
hours, and the jitter adds a tenth of it at most. -/
def pollLimit : Nat := 168 * 3960 * 1000000000

section Cycle

variable {β : Type} {host : Host β} {build : Build} {cast : Json.FloatCast} {f : Fractions}
  {p : UpdatePoller} {settings : UpdateSettings} {user : User} {req : ApplyRequest}

/-! ### One cycle -/

/-- What an apply does after the download fetches nothing. `SwapOp` lists these operations, so the
apply as a whole downloads what `fetchBinary` downloads. -/
theorem SwapOp.downloads {o : SysOp β} (h : SwapOp build req o) : o.downloads = false := by
  cases h with
  | mark _ _ h _ => cases h <;> rfl
  | _ => rfl

/-- The check for open sessions downloads nothing. It counts the sessions of this process, and for
the automatic poll only. -/
theorem sessionsBusy_atMost {origin : UpdateOrigin} :
    AtMost SysOp.downloads 0 (sessionsBusy origin : SysM β Bool) :=
  .ite (.bind (n := 0) (m := 0) (.other rfl) fun _ => trivial) trivial

/-- Steps 1 to 5 begin with the one download. Behind it the file is checked, made executable and
moved on, or removed. -/
theorem fetchBinary_atMost {install : Path} :
    AtMost SysOp.downloads 1 (fetchBinary host req install) := by
  have refuse (r : ApplyResult) : AtMost (I := sysInterface β) SysOp.downloads 0 (do
      let _ ← fsRemove (newPath install)
      return some r) := .bind (n := 0) (m := 0) (.other rfl) fun _ => trivial
  unfold fetchBinary
  refine .bind (n := 1) (m := 0) ?_ fun good => ?_
  · refine .bind (n := 1) (m := 0) (AtMost.single _) fun r => ?_
    cases r <;> trivial
  -- Nothing behind the download performs another one.
  refine .ite (refuse _) (.bind (n := 0) (m := 0) ?_ fun matched => .ite (refuse _) ?_)
  · refine .ite trivial (.bind (n := 0) (m := 0) (.bind (n := 0) (m := 0) (.other rfl)
      fun r => ?_) fun _ => trivial)
    cases r <;> trivial
  refine .bind (n := 0) (m := 0) (.other rfl) fun _ => ?_
  refine .bind (n := 0) (m := 0) (.bind (n := 0) (m := 0) (.other rfl) fun r => trivial)
    fun probed => ?_
  refine .ite (refuse _) (.bind (n := 0) (m := 0) sessionsBusy_atMost fun busy => ?_)
  exact .ite (refuse _) trivial

/-- An apply downloads one image at most. A failed download ends it, so there is no second attempt
inside one apply. -/
theorem applyWithWatchdog_atMost :
    AtMost SysOp.downloads 1 (applyWithWatchdog host build req) := by
  have guarded : AtMost SysOp.downloads 1 (applyGuarded host build req) := by
    unfold applyGuarded
    refine .bind (n := 0) (m := 1) (.call rfl fun r => ?_) fun found => .ite trivial ?_
    · cases r <;> trivial
    refine .bind (n := 0) (m := 1) sessionsBusy_atMost fun busy => .ite trivial ?_
    refine .bind (n := 0) (m := 1) (.bind (n := 0) (m := 0) (.other rfl) fun link => ?_)
      fun install => ?_
    · cases link <;> trivial
    refine .bind (n := 1) (m := 0) fetchBinary_atMost fun refused => ?_
    cases refused with
    | some r => trivial
    | none => exact (swapBinary_ops.mono fun _ h => h.downloads).atMost_zero
  unfold applyWithWatchdog
  refine .ite trivial (.bind (n := 0) (m := 1) (.other rfl) fun free => ?_)
  exact .ite trivial (.ensure (m := 0) guarded (.other rfl))

/-- An apply requests no manifest. It gets the release from the cycle, which has read it before. -/
theorem ApplyOp.requestsManifest {o : SysOp β} (h : ApplyOp build req o) :
    o.requestsManifest = false := by
  cases h with
  | swapping h =>
    cases h with
    | mark _ _ h _ => cases h <;> rfl
    | _ => rfl
  | _ => rfl

/-- The first half of a cycle, up to the release it decides to apply, requests one manifest at most.
The gates in front of the request end the half without any. -/
theorem candidate_atMost : AtMost SysOp.requestsManifest 1
    (p.candidate cast f settings : SysM β (Option Manifest)) := by
  have fetch : AtMost SysOp.requestsManifest 1
      (fetchManifest cast settings.channel : SysM β (Option Manifest)) := by
    refine .bind (n := 1) (m := 0) (AtMost.single _) fun res => ?_
    cases res with
    | error what => trivial
    | response status body => exact .ite trivial trivial
  have notReverted (man : Manifest) : AllOps (fun o => SysOp.requestsManifest o = false)
      (p.notReverted man : SysM β Bool) := by
    refine .bind (lastReverted_ops rfl) fun rev => ?_
    cases rev with
    | none => trivial
    | some rev => exact .bind (.single rfl) fun now => trivial
  -- One request where the manifest is fetched, none in the gates on its two sides.
  unfold UpdatePoller.candidate
  refine .ite trivial (.ite trivial (.bind (n := 1) (m := 0) fetch fun man => ?_))
  cases man with
  | none => trivial
  | some man =>
    refine .ite trivial (.ite trivial ?_)
    refine .bind (n := 0) (m := 0) (notReverted man).atMost_zero fun go => .ite trivial ?_
    exact .bind (n := 0) (m := 0) (.other rfl) fun now => .ite trivial trivial

/-- The second half of a cycle is an apply with its report and the restart. The restart is a signal
of the process to itself, so a kind that does not count it is bounded by the apply. -/
theorem applyCandidate_atMost {kind : SysOp β → Bool} {n : Nat}
    (hrestart : kind .raiseSigterm = false)
    (h : AtMost kind n (applyWithWatchdog host build req)) :
    AtMost kind n (UpdatePoller.applyCandidate host build req) := by
  refine .bind (n := n) (m := 0) h fun ar => ?_
  cases ar.st with
  | updated => exact .bind (n := 0) (m := 0) (.other hrestart) fun _ => trivial
  | deferred => trivial
  | error => trivial

/-- A cycle on the host requests one manifest at most: its first half does, and its second half does
not. -/
theorem runLocal_manifests :
    AtMost SysOp.requestsManifest 1 (p.runLocal host build cast f settings) := by
  unfold UpdatePoller.runLocal
  refine .bind (n := 1) (m := 0) candidate_atMost fun man => ?_
  cases man with
  | none => trivial
  | some man =>
    exact applyCandidate_atMost rfl
      (applyWithWatchdog_ops.mono fun o ho => ho.requestsManifest).atMost_zero

/-- A cycle on the host downloads one image at most: its first half does not, and its second half
does. -/
theorem runLocal_downloads :
    AtMost SysOp.downloads 1 (p.runLocal host build cast f settings) := by
  unfold UpdatePoller.runLocal
  have hchoose : AllOps (fun o => SysOp.downloads o = false)
      (p.candidate cast f settings : SysM β (Option Manifest)) :=
    candidate_ops.mono fun o ho => by cases ho <;> rfl
  refine .bind (n := 0) (m := 1) hchoose.atMost_zero fun man => ?_
  cases man with
  | none => trivial
  | some man => exact applyCandidate_atMost rfl applyWithWatchdog_atMost

/-- The settings are read with the two operations of `readLocal`, whatever the user and the path
are. Neither of them goes to the server. -/
theorem readLocal_ops {ok : SysOp β → Prop} (hexists : ∀ q, ok (.exists q))
    (hread : ∀ q, ok (.read q)) {configPath : Path} :
    AllOps ok (UpdatePoller.readLocal user configPath : SysM β UpdateSettings) := by
  unfold UpdatePoller.readLocal
  split
  · trivial
  · exact .bind (readUpdateSection_ops (hexists _) (hread _)) fun _ => trivial

/-- A cycle of the thread is as sparing as the cycle on the host. It adds the load of the members,
once, and the random number for the next wait. -/
theorem pollCycle_atMost {kind : PollOp β → Bool} (hkind : Rationed kind) :
    AtMost kind 1 (p.pollCycle host build cast f user) := by
  -- The budgets of the parts: the read of the settings, the load of the members, the rest.
  have whole {n m k : Nat} (hlocal : AtMost (fun o => kind (.host o)) 0
      (UpdatePoller.readLocal user p.configPath : SysM β UpdateSettings))
      (hmembers : AtMost kind n members)
      (hrun : ∀ (p : UpdatePoller) (settings : UpdateSettings),
        AtMost (fun o => kind (.host o)) m (p.runLocal host build cast f settings))
      (hk : n + m = k) : AtMost kind k (p.pollCycle host build cast f user) := by
    have hrest (settings : UpdateSettings) (seen : Int32 × Bool) : AtMost kind m (do
        let result ← onHost (UpdatePoller.runLocal
          { p with remotePolicy := seen.1, connected := seen.2 } host build cast f settings)
        return (result, settings.checkIntervalH) : CycleM β (CycleResult × Int32)) :=
      .bind (n := m) (m := 0) (.through (hrun _ settings)) fun result => trivial
    have hpoll : AtMost kind (0 + (n + m)) (p.pollCycle host build cast f user) :=
      .bind (.through hlocal) fun settings => .bind hmembers fun seen => hrest settings seen
    exact hpoll.mono (by omega)
  have hlocal {kind : SysOp β → Bool} (hexists : ∀ q, kind (.exists q) = false)
      (hread : ∀ q, kind (.read q) = false) :
      AtMost kind 0 (UpdatePoller.readLocal user p.configPath : SysM β UpdateSettings) :=
    (readLocal_ops hexists hread).atMost_zero
  -- Each kind of operation is performed in one of the parts only.
  cases hkind with
  | manifest =>
    exact whole (hlocal (fun _ => rfl) fun _ => rfl) (.other rfl)
      (fun p settings => runLocal_manifests) rfl
  | download =>
    exact whole (hlocal (fun _ => rfl) fun _ => rfl) (.other rfl)
      (fun p settings => runLocal_downloads) rfl
  | cycle =>
    exact whole (hlocal (fun _ => rfl) fun _ => rfl) (AtMost.single _)
      (fun p settings => (runLocal_ops.mono fun _ _ => rfl).atMost_zero) rfl

/-- Whatever the section says, the interval is from one hour to a week. The lower end is what makes
the load on the server bounded. -/
theorem checkIntervalH_range (j : Json) : 1 ≤ (UpdateSettings.fromJson j).checkIntervalH.toInt ∧
    (UpdateSettings.fromJson j).checkIntervalH.toInt ≤ 168 := by
  obtain ⟨hmin, hmax⟩ := (UpdateSettings.inRange_fromJson j).checkIntervalH
  rw [Int32.le_iff_toInt_le] at hmin hmax
  exact ⟨hmin, hmax⟩

/-- The interval that a cycle leaves for the next wait is in its range, also when the cycle ends
early. -/
theorem pollCycle_returns : Returns
    (fun r : CycleResult × Int32 => 1 ≤ r.2.toInt ∧ r.2.toInt ≤ 168)
    (p.pollCycle host build cast f user) := by
  have hlocal : Returns (fun s : UpdateSettings => 1 ≤ s.checkIntervalH.toInt ∧
      s.checkIntervalH.toInt ≤ 168)
      (UpdatePoller.readLocal user p.configPath : SysM β UpdateSettings) := by
    unfold UpdatePoller.readLocal
    split
    · trivial
    · exact (returns_any _).bind fun j _ => checkIntervalH_range j
  refine .bind (.through hlocal) fun settings hsettings => ?_
  refine .bind (returns_any _) fun seen _ => ?_
  exact .bind (.through (returns_any _)) fun result _ => hsettings

/-! ### The loop -/

section Loop

variable {kind : PollOp β → Bool} {s : Timed (pollInterface β) (World β)}
  {A : (pollInterface β).timed.Op → Tick (PollChoice β) → Prop}

/-- A delay that is between the least and the greatest one. All waits but the first one are for such
a delay. -/
def Delay (d : Nat) : Prop := pollGap ≤ d ∧ d ≤ pollLimit

/-- The delay after a deferred update is one, and the shortest there is. -/
theorem delay_deferred : Delay
    (UpdatePoller.milliseconds (millis (.ofNat DEFERRED_RETRY_DELAY_S))) := by
  rw [deferredRetryDelay]
  exact ⟨by decide, by decide⟩

/-- The delay after any other cycle is one: the interval with a jitter of ten percent at most, for
every value of the random number. -/
theorem delay_normal {h : Int32} (hh : 1 ≤ h.toInt ∧ h.toInt ≤ 168) (u : FloatValue) :
    Delay (UpdatePoller.milliseconds (millis (normalPollDelayS h u))) := by
  obtain ⟨n, hn⟩ : ∃ n : Nat, h.toInt = n := Int.eq_ofNat_of_zero_le (by omega)
  obtain ⟨hlow, hhigh⟩ := normalPollDelay_range hn (by omega) u
  unfold Delay UpdatePoller.milliseconds pollGap pollLimit
  omega

/-- The first delay of a thread is not too long. It may be short, because no cycle of this run has
come before it. -/
theorem delay_first (u : FloatValue) :
    UpdatePoller.milliseconds (millis (firstPollDelayS u)) ≤ pollLimit := by
  have := firstPollDelay_le u
  unfold UpdatePoller.milliseconds pollLimit
  omega

/-- The wait after a delay is ready, whatever was called before the clock was read. The round goes
on with the time for the next cycle, which is at least the gap after every call of the kind. -/
theorem cwp_nextRound {d : Nat} (hd : Delay d) {k : Nat → PollM β Unit}
    (h : s.Paced pollGap pollLimit kind)
    (hk : ∀ s' next, s'.Paced pollGap pollLimit kind →
      s'.Rested pollGap kind next → next ≤ s'.clock + pollLimit →
      cwp (pollMachine host).timed A (fun v => v.Paced pollGap pollLimit kind)
        (k next) (fun _ _ => True) s') :
    cwp (pollMachine host).timed A (fun v => v.Paced pollGap pollLimit kind)
      (now >>= fun t => k (t + d)) (fun _ _ => True) s := by
  refine cwp_now h fun s' hpaced hclock hrested => hk s' _ hpaced (hrested _ (h.rested ?_)) ?_
  · have := hd.1
    omega
  · have := hd.2
    omega

/-- One round after the other: the wait ends when the last request is old enough, and the cycle
after it may make another. The induction is on the number of rounds. -/
theorem pollRounds_paced (hkind : Rationed kind) (rounds next : Nat)
    (h : s.Paced pollGap pollLimit kind)
    (hrested : s.Rested pollGap kind next) (hnext : next ≤ s.clock + pollLimit) :
    cwp (pollMachine host).timed A (fun v => v.Paced pollGap pollLimit kind)
      (p.pollRounds host build cast f user rounds next) (fun _ _ => True) s := by
  induction rounds generalizing next s with
  | zero => exact ⟨h, trivial⟩
  | succ rounds ih =>
    unfold UpdatePoller.pollRounds
    refine cwp_waitUntil h hrested hnext fun s₁ stopping hpaced hready => ?_
    cases stopping with
    | true => exact ⟨hpaced, trivial⟩
    | false =>
      -- The wait is over, so the last operation of the kind is old enough for one more.
      refine cwp_bind (cwp_mono (cwp_timed (pollCycle_atMost hkind) (Nat.le_refl 1)
        pollCycle_returns hpaced fun _ => hready rfl) (fun _ hv => hv) ?_)
      intro r s₂ hpaced₂ hend
      cases r with
      | error e => trivial
      | ok result =>
        obtain ⟨result, lastIntervalH⟩ := result
        -- The interval was clamped when the settings were read.
        have hrange := hend.1 _ rfl
        cases result with
        | restarting => exact ⟨hpaced₂, trivial⟩
        | deferred =>
          exact cwp_nextRound delay_deferred hpaced₂ fun s₃ next' h₁ h₂ h₃ => ih next' h₁ h₂ h₃
        | normal =>
          have huniform : kind .uniform = false := by cases hkind <;> rfl
          refine cwp_bind (cwp_mono (cwp_timed (n := 0) (.other huniform) (by omega)
            (returns_any _) hpaced₂ (by omega)) (fun _ hv => hv) ?_)
          intro r s₃ hpaced₃ _
          cases r with
          | error e => trivial
          | ok u =>
            exact cwp_nextRound (delay_normal hrange u) hpaced₃
              fun s₄ next' h₁ h₂ h₃ => ih next' h₁ h₂ h₃

/-- The whole loop is paced, from a state in which nothing of the kind has been called yet. It is
the first wait and the rounds behind it. -/
theorem pollLoop_paced (hkind : Rationed kind) (rounds : Nat)
    (h : s.Paced pollGap pollLimit kind) (hfirst : ∀ t, s.Rested pollGap kind t) :
    cwp (pollMachine host).timed A (fun v => v.Paced pollGap pollLimit kind)
      (p.pollLoop host build cast f user rounds) (fun _ _ => True) s := by
  unfold UpdatePoller.pollLoop
  -- Nothing was called yet, so the first delay may be as short as it wants.
  refine cwp_now h fun s₁ hpaced hclock hrested => ?_
  have huniform : kind .uniform = false := by cases hkind <;> rfl
  refine cwp_bind (cwp_mono (cwp_timed (n := 0) (.other huniform) (by omega)
    (returns_any _) hpaced (by omega)) (fun _ hv => hv) ?_)
  intro r s₂ hpaced₂ hend
  cases r with
  | error e => trivial
  | ok u =>
    refine pollRounds_paced hkind rounds _ hpaced₂ (hend.2.2 rfl _ (hrested _ (hfirst _))) ?_
    have := delay_first u
    have := hend.2.1
    omega

end Loop

end Cycle

/-- In every window of time the operations of the kind are at most one more than the window has
times ten minutes. -/
def WithinRate {β : Type} (s : Timed (pollInterface β) (World β)) (kind : PollOp β → Bool) : Prop :=
  ∀ start len,
    ((s.calls kind).filter fun t => start ≤ t ∧ t ≤ start + len).length ≤ len / pollGap + 1

/-- The state after a run of the poll thread that starts in `w` at the time `clock`. -/
def pollRun {β : Type} (p : UpdatePoller) (host : Host β) (build : Build) (cast : Json.FloatCast)
    (f : Fractions) (user : User) (rounds : Nat) (w : World β) (clock : Nat)
    (cs : List (Tick (PollChoice β))) : Timed (pollInterface β) (World β) :=
  ((pollMachine host).timed.after cs
    (p.pollLoop host build cast f user rounds, ⟨w, clock, []⟩)).2

/-- A run of the poll thread, from any state of the device, with anything that other threads, the
files and the servers do in the meantime. In every window of time there is at most one cycle for
every ten minutes and one more, and so for the manifests that it requests and the images that it
downloads. Every wait is for a time at most a week and ten percent ahead. -/
theorem poll_rate {β : Type} (p : UpdatePoller) (host : Host β) (build : Build)
    (cast : Json.FloatCast) (f : Fractions) (user : User) (rounds : Nat) (w : World β)
    (clock : Nat) (cs : List (Tick (PollChoice β))) :
    WithinRate (pollRun p host build cast f user rounds w clock cs) PollOp.isCycle ∧
    WithinRate (pollRun p host build cast f user rounds w clock cs) PollOp.requestsManifest ∧
    WithinRate (pollRun p host build cast f user rounds w clock cs) PollOp.downloads ∧
    ∀ t u, (t, .waitUntil u) ∈ (pollRun p host build cast f user rounds w clock cs).log →
      u ≤ t + pollLimit := by
  have paced {kind : PollOp β → Bool} (hkind : Rationed kind) :
      (pollRun p host build cast f user rounds w clock cs).Paced pollGap pollLimit kind := by
    have hempty : Timed.Paced pollGap pollLimit kind
        (⟨w, clock, []⟩ : Timed (pollInterface β) (World β)) :=
      ⟨.nil, fun _ ht => (List.not_mem_nil ht).elim, fun _ _ hmem => (List.not_mem_nil hmem).elim⟩
    have hloop : cwp (pollMachine host).timed (anyAnswer _ _)
        (fun v => v.Paced pollGap pollLimit kind) (p.pollLoop host build cast f user rounds)
        (fun _ _ => True) ⟨w, clock, []⟩ :=
      pollLoop_paced hkind rounds hempty fun _ _ ht => (List.not_mem_nil ht).elim
    exact cwp_after_inv hloop (admits_anyAnswer _ cs _)
  have rate {kind : PollOp β → Bool} (hkind : Rationed kind) :
      WithinRate (pollRun p host build cast f user rounds w clock cs) kind :=
    spaced_window (by decide) (paced hkind).spaced
  exact ⟨rate .cycle, rate .manifest, rate .download, (paced .cycle).waits⟩

end ThinrAgent
