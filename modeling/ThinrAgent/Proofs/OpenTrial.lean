import ThinrAgent.Proofs.Runtime

/-!
# `ThinrAgent.Proofs.OpenTrial`: is a swap put on trial?

After an update the next start of the installed binary compares the version it runs with the
version in the marker. The apply path probes the same version, compares it with the version of the
manifest, and only logs a difference.

`Unresolved` has every world that is reached from the swap while nothing has resolved the trial.
The installed binary may be started any number of times. Each of its processes may stop at any
operation: in the boot check, in the constructor of the watchdog, or while the io thread, the
deadline thread and the thread that calls `stop` run in any order. Further updates may be asked
for. Every call may fail. Four things resolve a trial, and the definition leaves them out: the
client state STREAMS_READY, a rejection of the credentials, the end of the deadline, and a start
with no attempts left.

`PutOnTrial` says that the next start arms, and that the marker and the backup are there in every
such world. `OpenTrial` is the invariant: one lemma for each stage of a process
(`OpenTrial.booting`, `OpenTrial.running`), and `OpenTrial.unresolved` for the whole run.
`putOnTrial_iff` proves that a swap is put on trial exactly when the binary reports the version of
the request.
-/

set_option autoImplicit false

namespace ThinrAgent

open Effects

/-! ### The time before a trial is resolved -/

section Unresolved

variable {β : Type} (host : Host β) (L : Layout)

/-- The client state does not resolve a trial: the streams are not ready, and the client does not
say that the credentials are rejected. A rejection that only stands for an i/o error is none. -/
def Undecided (e : ClientState × String) : Prop :=
  e.1 ≠ .streamsReady ∧ (e.1 = .authFailed → e.2 = "io_error")

/-- The deadline does not end in this step: the deadline thread does not come back from its wait,
or it comes back because the watchdog was told to stop. -/
def InTime (s : Pool (sysInterface β) Exc Unit (World β) WatchdogThread)
    (m : WatchdogThread × Choice β) : Prop :=
  ∀ k, s.threads m.1 = .call .waitDeadline k → s.world.proc.deadlineStop = true

/-- The worlds that one process of the binary `n` reaches from `w` before anything resolves the
trial. The process may be in its boot check, in the constructor of its watchdog, or past it with
the threads of the watchdog at any point. -/
inductive Moment (n : β) (w : World β) : World β → Prop where
  | booting (cs : List (Choice β)) :
      Moment n w ((hostMachine host).after cs
        (checkBoot L.stateDir (host.reportedVersion n), w)).2
  | creating (cs ds : List (Choice β)) (w₁ : World β)
      (booted : (hostMachine host).after cs
        (checkBoot L.stateDir (host.reportedVersion n), w) = (.ret .proceed, w₁)) :
      Moment n w ((hostMachine host).after ds
        (UpdateWatchdog.create L.stateDir (host.reportedVersion n), w₁)).2
  | running (cs ds : List (Choice β)) (w₁ w₂ : World β) (wd : UpdateWatchdog)
      (events : List (ClientState × String)) (ms : List (WatchdogThread × Choice β))
      (booted : (hostMachine host).after cs
        (checkBoot L.stateDir (host.reportedVersion n), w) = (.ret .proceed, w₁))
      (created : (hostMachine host).after ds
        (UpdateWatchdog.create L.stateDir (host.reportedVersion n), w₁) = (.ret wd, w₂))
      (undecided : ∀ e ∈ events, Undecided e)
      (inTime : Pool.Meets (fun _ => hostMachine host) waitsFor InTime ms
        { threads := watchdogThreads wd events, world := w₂ }) :
      Moment n w (watchdogRun wd host events w₂ ms).world

/-- The worlds that are reached from `w` while nothing has resolved the trial. A start is one of the
installed binary, in a new process, over a marker that has attempts left. An update that is asked
for in the meantime may stop anywhere too. -/
inductive Unresolved (w : World β) : World β → Prop where
  | swapped : Unresolved w w
  | start {v v' : World β} (proc : Process) (n : β) (reached : Unresolved w v)
      (installed : v.files (L.path .install) = some (.image n))
      (attempts : ∀ m, v.marker L.stateDir = some m → ¬ m.counted.attempts > WATCHDOG_MAX_ATTEMPTS)
      (moment : Moment host L n { v with proc := proc, inProgress := false } v') :
      Unresolved w v'
  | apply {v : World β} (build : Build) (req : ApplyRequest) (cs : List (Choice β))
      (reached : Unresolved w v) (dir : req.stateDir = L.stateDir) :
      Unresolved w ((hostMachine host).after cs (applyWithWatchdog host build req, v)).2

/-- The swap in `w` is put on trial. The next start of the installed binary is decided as `arm`. The
backup is there, and until something resolves the trial the marker stays pending for the same
version and the backup stays as it is. -/
def PutOnTrial (w : World β) : Prop :=
  ∃ n m, w.files (L.path .install) = some (.image n) ∧ w.marker L.stateDir = some m ∧
    (decideBoot (some m) (host.reportedVersion n)).action = .arm ∧
    w.files m.prevBinary ≠ none ∧
    ∀ v, Unresolved host L w v →
      (∃ m', v.marker L.stateDir = some m' ∧ m'.phase = .pending ∧ m'.toVersion = m.toVersion) ∧
        v.files m.prevBinary = w.files m.prevBinary

end Unresolved

/-! ### The invariant -/

/-- The trial of the binary `n` for `version` is open: the binary is installed, the backup is
there, and the text of the marker is one that is pending for the version. -/
structure OpenTrial {β : Type} (L : Layout) (n : β) (version : String) (backup : Content β)
    (w : World β) : Prop where
  install : w.files (L.path .install) = some (.image n)
  prev : w.files (L.path .prev) = some backup
  state : ∃ m : UpdateMarker, w.files (L.path .state) = some (.json m.toJson) ∧
    m.phase = .pending ∧ m.toVersion = version ∧ m.prevBinary = L.path .prev

namespace OpenTrial

variable {β : Type} {host : Host β} {L : Layout} {n : β} {version : String} {backup : Content β}
  {w w' : World β}

/-- The invariant is about three files, so a step that keeps these keeps it. -/
theorem of_files (h : OpenTrial L n version backup w)
    (hinstall : w'.files (L.path .install) = w.files (L.path .install))
    (hprev : w'.files (L.path .prev) = w.files (L.path .prev))
    (hstate : w'.files (L.path .state) = w.files (L.path .state)) :
    OpenTrial L n version backup w' :=
  ⟨hinstall.trans h.install, hprev.trans h.prev, by rw [hstate]; exact h.state⟩

/-- A step that changes no file keeps an open trial. -/
theorem of_scratch (h : OpenTrial L n version backup w) (hw : World.Scratch [] w w') :
    OpenTrial L n version backup w' :=
  h.of_files (hw.files (by simp)) (hw.files (by simp)) (hw.files (by simp))

/-- The flags are no part of an open trial. -/
theorem of_sameFiles (h : OpenTrial L n version backup w) (hw : w.SameFiles w') :
    OpenTrial L n version backup w' := by
  obtain ⟨r, d, rfl⟩ := hw
  exact h.of_files rfl rfl rfl

/-- What a reader of the marker finds in an open trial: a pending one, for the version on trial. -/
theorem marker (h : OpenTrial L n version backup w) :
    ∃ m, w.marker L.stateDir = some m ∧ m.phase = .pending ∧ m.toVersion = version := by
  obtain ⟨m, hm, hphase, hversion, -⟩ := h.state
  exact ⟨m, World.marker_of_files hm, hphase, hversion⟩

/-- The boot check of a process with attempts left: it counts one attempt or leaves the files as
they are, whatever fails in it. -/
theorem booting (h : OpenTrial L n version backup w)
    (hattempts : ∀ m, w.marker L.stateDir = some m → ¬ m.counted.attempts > WATCHDOG_MAX_ATTEMPTS)
    (hw : L.Booting version w w') : OpenTrial L n version backup w' := by
  obtain ⟨m, hm, hphase, hversion, hprev⟩ := h.state
  have hmarker : w.marker L.stateDir = some m := World.marker_of_files hm
  have hd : L.bootDecision version w
      = { action := .arm, marker := m.counted,
          detail := "new binary on trial; arming watchdog" } := by
    rw [Layout.bootDecision, hmarker]
    exact decideBoot_arm hphase hversion.symm (hattempts m hmarker)
  -- The decision is `arm`, so the two cases of another decision cannot be.
  cases hw with
  | untouched hs => exact h.of_scratch hs
  | clearing hclear =>
    rw [hd] at hclear
    cases hclear
  | arming _ hs hstate =>
    refine ⟨(hs.files (by simp)).trans h.install, (hs.files (by simp)).trans h.prev, ?_⟩
    rcases hstate with hstate | hstate
    · exact ⟨m, hstate.trans hm, hphase, hversion, hprev⟩
    · rw [hd] at hstate
      exact ⟨m.counted, hstate, hphase, hversion, hprev⟩
  | reverting hrevert =>
    rw [hd] at hrevert
    cases hrevert

end OpenTrial

/-! ### The threads of a watchdog before the trial is resolved -/

section Threads

variable {β : Type} {host : Host β} (wd : UpdateWatchdog)

/-- The watchdog ignores a client state that does not resolve a trial. -/
theorem onState_of_undecided {e : ClientState × String} (he : Undecided e) :
    (wd.onState e.1 e.2 : SysM β UpdateWatchdog) = .ret wd := by
  obtain ⟨hready, hauth⟩ := he
  have hignore : decideRuntime (UpdateWatchdog.eventOf e.1 e.2) ≠ .rollback := by
    cases hstate : e.1 with
    | streamsReady => exact absurd hstate hready
    | authFailed => simp [UpdateWatchdog.eventOf, hauth hstate, decideRuntime]
    | other name => simp [UpdateWatchdog.eventOf, decideRuntime]
  rw [UpdateWatchdog.onState_eq, if_neg hready, if_neg fun h => hignore h.2]

/-- The io thread has nothing to do as long as every state leaves the trial undecided. -/
theorem ioThread_of_undecided {events : List (ClientState × String)}
    (h : ∀ e ∈ events, Undecided e) : (ioThread wd events : SysM β Unit) = .ret () := by
  induction events with
  | nil => rfl
  | cons e events ih =>
    rw [ioThread, onState_of_undecided wd (h e List.mem_cons_self)]
    exact ih fun e' he' => h e' (List.mem_cons_of_mem _ he')

/-- The thread that stops the watchdog works on no file. -/
theorem stop_quiet : AllOps (fun o : SysOp β => o.quiet = true) wd.stop := by
  unfold UpdateWatchdog.stop
  refine .bind (.single rfl) fun _ => .ite (fun _ => ?_) fun _ => .single rfl
  exact .bind (.single rfl) fun _ => .single rfl

/-- Before the trial is resolved the threads synchronise and change no file. The deadline thread
waits, or has come back because it was told to stop. -/
theorem watchdogRun_undecided {w : World β} {events : List (ClientState × String)}
    {ms : List (WatchdogThread × Choice β)} (hevents : ∀ e ∈ events, Undecided e)
    (hms : Pool.Meets (fun _ => hostMachine host) waitsFor InTime ms
      { threads := watchdogThreads wd events, world := w }) :
    w.SameFiles (watchdogRun wd host events w ms).world := by
  -- A thread synchronises only, or it is the deadline thread before its wait.
  let Waits (p : SysM β Unit) : Prop :=
    AllOps (fun o : SysOp β => o.quiet = true) p ∨ p = wd.deadlineLoop
  have hstart : ∀ i, Waits (watchdogThreads wd events i) := by
    intro i
    cases i with
    | io => exact .inl (by rw [watchdogThreads, ioThread_of_undecided wd hevents]; trivial)
    | deadline =>
      simp only [watchdogThreads]
      split
      · exact .inr rfl
      · exact .inl trivial
    | stop => exact .inl (stop_quiet wd)
  -- Both parts of the invariant: no file has changed, and every thread is such a thread.
  refine (Pool.run_inv (J := fun s => w.SameFiles s.world ∧ ∀ i, Waits (s.threads i)) (P := InTime)
    ?_ ⟨.refl w, hstart⟩ hms).1
  rintro s i c o k ⟨hsame, hwaits⟩ htime hi -
  have hthread : o.quiet = true ∧ Waits (k (exec host s.world o c).1) := by
    rcases hwaits i with hquiet | hloop
    · rw [hi] at hquiet
      exact ⟨hquiet.1, .inl (hquiet.2 _)⟩
    · -- The wait comes back only with the flag set, and then the thread ends.
      rw [hi] at hloop
      obtain ⟨rfl, hk⟩ := Prog.call.inj hloop
      refine ⟨rfl, .inl ?_⟩
      show AllOps _ (k s.world.proc.deadlineStop)
      rw [htime k hi, eq_of_heq hk]
      trivial
  refine ⟨hsame.trans (exec_sameFiles_of_quiet host c hthread.1), fun j => ?_⟩
  by_cases hj : j = i
  · subst hj
    rw [Pool.threads_perform_self]
    exact hthread.2
  · rw [Pool.threads_perform_ne hj]
    exact hwaits j

end Threads

/-! ### The whole run -/

namespace OpenTrial

variable {β : Type} {host : Host β} {L : Layout} {n : β} {version : String} {backup : Content β}
  {w v v' : World β}

/-- A process keeps the trial open at every moment. -/
theorem moment (h : OpenTrial L n (host.reportedVersion n) backup w)
    (hattempts : ∀ m, w.marker L.stateDir = some m → ¬ m.counted.attempts > WATCHDOG_MAX_ATTEMPTS)
    (hv : Moment host L n w v) : OpenTrial L n (host.reportedVersion n) backup v := by
  have booted (cs : List (Choice β)) : OpenTrial L n (host.reportedVersion n) backup
      ((hostMachine host).after cs (checkBoot L.stateDir (host.reportedVersion n), w)).2 :=
    h.booting hattempts (cwp_after_inv checkBoot_spec (admits_anyAnswer _ cs _))
  have created (w₁ : World β) (ds : List (Choice β)) : ((hostMachine host).after ds
      (UpdateWatchdog.create L.stateDir (host.reportedVersion n), w₁)).2 = w₁ :=
    cwp_after_inv create_spec (admits_anyAnswer _ ds _)
  -- The constructor of the watchdog only reads, and its threads change shared flags at most.
  cases hv with
  | booting cs => exact booted cs
  | creating cs ds w₁ hbooted =>
    have hopen := booted cs
    rw [hbooted] at hopen
    rw [created w₁ ds]
    exact hopen
  | running cs ds w₁ w₂ wd events ms hbooted hcreated hevents htime =>
    have hopen := booted cs
    rw [hbooted] at hopen
    have hsame := created w₁ ds
    rw [hcreated] at hsame
    subst hsame
    exact hopen.of_sameFiles (watchdogRun_undecided wd hevents htime)

/-- The run lemma: the trial is open until something resolves it. -/
theorem unresolved (h : OpenTrial L n (host.reportedVersion n) backup w)
    (hv : Unresolved host L w v) : OpenTrial L n (host.reportedVersion n) backup v := by
  induction hv with
  | swapped => exact h
  | @start v _ proc n' _ installed attempts hmoment ih =>
    obtain rfl : n' = n := by
      have := installed.symm.trans ih.install
      cases this
      rfl
    have hopen : OpenTrial L n' (host.reportedVersion n') backup
        { v with proc := proc, inProgress := false } := ih.of_files rfl rfl rfl
    exact hopen.moment attempts hmoment
  | @apply v build req cs _ dir ih =>
    -- The marker is there, so the update is refused before it changes anything.
    have hstate : v.files (L.path .state) ≠ none := by
      obtain ⟨m, hm, -⟩ := ih.state
      simp [hm]
    have hspec : cwp (hostMachine host) (anyAnswer (sysInterface β) (Choice β))
        (L.Reached build req host (anyAnswer (sysInterface β) (Choice β)) v)
        (applyWithWatchdog host build req)
        (L.Ended build req host (anyAnswer (sysInterface β) (Choice β)) v) v :=
      applyWithWatchdog_spec dir fun hno => absurd hno hstate
    have hreached := cwp_after_inv hspec (admits_anyAnswer _ cs _)
    cases hreached with
    | refused hs => exact ih.of_scratch hs
    | unswapped absent => exact absurd absent hstate
    | swapped b absent => exact absurd absent hstate

end OpenTrial

/-! ### The result -/

section Result

variable {β : Type} {host : Host β} {L : Layout}

/-- Every swap of the binary `b` that reports `updated` is put on trial exactly when `b` reports the
version of the request. Otherwise its next start takes the marker for a stale one and removes it
with the backup. -/
theorem putOnTrial_iff (build : Build) (req : ApplyRequest) (b : β) (w : World β)
    (hdir : req.stateDir = L.stateDir) (hexe : w.proc.binaryPath = L.path .install)
    (cs : List (Choice β))
    (hcs : (hostMachine host).Admits (deliversOnly b) cs (applyWithWatchdog host build req, w))
    (res : ApplyResult)
    (hend : ((hostMachine host).after cs (applyWithWatchdog host build req, w)).1 = .ret res)
    (hupdated : res.st = .updated) :
    PutOnTrial host L ((hostMachine host).after cs (applyWithWatchdog host build req, w)).2 ↔
      host.reportedVersion b = req.version := by
  obtain ⟨b', ⟨c, hc, hleft⟩, -, hswap, -⟩ :=
    cwp_after_ret (applyWithWatchdog_spec hdir fun _ => hexe) hcs hend res rfl hupdated
  -- Every download delivers `b`, so it is the image that was swapped in.
  obtain rfl : b' = b := hc b' hleft
  generalize ((hostMachine host).after cs (applyWithWatchdog host build req, w)).2 = w'
    at hswap ⊢
  obtain ⟨t, hstate⟩ := hswap.state
  obtain ⟨old, -, hprev⟩ := hswap.prev
  have hmarker : (w'.marker L.stateDir) = _ := World.marker_of_files hstate
  have hinstall : w'.files (L.path .install) = some (.image b') := by
    rw [World.files_eq, hswap.install]
    rfl
  constructor
  · rintro ⟨n, m, hn, hm, harm, -⟩
    rw [hinstall] at hn
    rw [hmarker] at hm
    cases hn
    cases hm
    exact (decideBoot_action_eq_arm.mp harm).2.1
  · intro hversion
    have harm : (decideBoot (some (pendingMarker build req (L.path .install) t))
        (host.reportedVersion b')).action = .arm :=
      decideBoot_action_eq_arm.mpr ⟨rfl, hversion, show ¬ (0 + 1 : Int32) > 3 by decide⟩
    have hopen : OpenTrial L b' (host.reportedVersion b') old w' :=
      ⟨hinstall, hprev, _, hstate, rfl, hversion.symm, rfl⟩
    refine ⟨b', _, hinstall, hmarker, harm, ?_, fun v hv => ?_⟩
    · rw [show (pendingMarker build req (L.path .install) t).prevBinary = L.path .prev from rfl,
        hprev]
      simp
    · have hkept := hopen.unresolved hv
      obtain ⟨m, hm, hphase, hto⟩ := hkept.marker
      exact ⟨⟨m, hm, hphase, hto.trans hversion⟩, hkept.prev.trans hprev.symm⟩

end Result

/-- An update to a version that the downloaded binary reports. -/
theorem putOnTrial_iff_sample :
    PutOnTrial sampleHost .system (sampleUpdate "2").2 ↔ sampleHost.reportedVersion 2 = "2" :=
  putOnTrial_iff sampleBuild (sampleRequest "2") 2 sampleWorld rfl rfl sampleAnswers
    (admits_of_forall _ (fun _ hc => sampleAnswers_deliver hc) _)
    (sampleUpdated "2") (Prog.result_eq_ok.mp (by decide +kernel)) rfl

/-- The manifest says 2.0 and the binary reports 2: the update succeeds and is not put on
trial. -/
theorem not_putOnTrial_sample :
    (sampleUpdate "2.0").1.result = some (.ok (sampleUpdated "2.0")) ∧
      ¬ PutOnTrial sampleHost .system (sampleUpdate "2.0").2 := by
  refine ⟨by decide +kernel, ?_⟩
  rintro ⟨n, m, hn, hm, harm, -⟩
  have himage := World.image_of_files hn
  have hn2 : n = 2 := by
    rw [show (sampleUpdate "2.0").2.image (Layout.system.path .install) = some 2 by
      decide +kernel] at himage
    exact (Option.some.inj himage).symm
  have hto : ((sampleUpdate "2.0").2.marker Layout.system.stateDir).map UpdateMarker.toVersion
      = some "2.0" := by decide +kernel
  rw [hm] at hto
  have hversion := (decideBoot_action_eq_arm.mp harm).2.1
  rw [Option.some.inj hto, hn2] at hversion
  exact absurd hversion (by decide +kernel)

end ThinrAgent
