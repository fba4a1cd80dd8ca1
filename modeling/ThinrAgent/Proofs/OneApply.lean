import ThinrAgent.Effects.Mutex
import ThinrAgent.Proofs.Apply

/-!
# `ThinrAgent.Proofs.OneApply`: several updates in the threads of one process

The poll thread and the threads of the `update` resource may call `apply_with_watchdog` at a time.
The flag `in_progress` makes each call a critical section (`applyMutex`). The resource it protects
is the installed binary: it is the one at the start, or a call has installed its image, with the
marker of this call and the backup of the binary at the start (`Resource`). A later call finds the
marker and leaves everything as it is.

`applySection` verifies one call from the specification of a call that runs alone, and
`one_apply_in_process` is the result for all interleavings.
-/

set_option autoImplicit false

namespace ThinrAgent

open Effects

/-- The thread whose call has installed its image, if one has. It is the ghost state of the lock. -/
inductive Winner (ι : Type) where
  | nobody
  | thread (i : ι)

namespace Winner

/-- The winner is decided once: before it there is nobody, and after it nobody else. -/
instance (ι : Type) : Preorder (Winner ι) where
  le g g' := g = nobody ∨ g = g'
  le_refl _ := .inr rfl
  le_trans := by
    intro g g' g'' h h'
    rcases h with rfl | rfl
    · exact .inl rfl
    · exact h'

end Winner

section

variable {β ι : Type} (host : Host β) (build : Build) (A : SysOp β → Choice β → Prop) (L : Layout)

/-- The image `b` of the request is installed and on trial, and the binary of `w₀` is its backup. -/
structure Installs (req : ApplyRequest) (w₀ : World β) (b : β) (w : World β) : Prop where
  delivered : Delivers A req.url (L.path .new) b
  probed : host.reportedVersion b ≠ ""
  install : w.entry (L.path .install) = some (.image b, false)
  prev : ∃ old, w₀.files (L.path .install) = some old ∧ w.files (L.path .prev) = some old
  state : ∃ t, w.files (L.path .state) = some (L.pendingContent build req t)

/-- What the calls share, by who has won: while nobody has, the installed binary is the one from the
start, and afterwards it is the winner's. -/
def Resource (reqs : ι → ApplyRequest) (w₀ : World β) : Winner ι → World β → Prop
  | .nobody, w => w.entry (L.path .install) = w₀.entry (L.path .install) ∧ w.proc = w₀.proc
  | .thread i, w => ∃ b, Installs host build A L (reqs i) w₀ b w

/-- The lock of the calls, as an instance of the rule for a mutual exclusion: what holds of the
shared files with and without the lock, and what a call has reached. -/
def applyMutex (reqs : ι → ApplyRequest) (w₀ : World β) :
    Mutex (sysInterface β) Exc ApplyResult (World β) ι (Winner ι) where
  held w := w.inProgress = true
  free := Resource host build A L reqs w₀
  inside i g w := Resource host build A L reqs w₀ g w ∨
    (g = .nobody ∧ Resource host build A L reqs w₀ (.thread i) w)
  outside i g p := p = applyWithWatchdog host build (reqs i) ∨
    ∃ r, p.result = some r ∧ ∀ res, r = .ok res → res.st = .updated → g = .thread i
  outside_mono := by
    intro i g g' p hg hp
    rcases hg with rfl | rfl
    · rcases hp with hp | ⟨r, hr, hupdated⟩
      · exact .inl hp
      · exact .inr ⟨r, hr, fun res hres hst => by cases hupdated res hres hst⟩
    · exact hp

variable {host build A L} {reqs : ι → ApplyRequest} {w₀ w w' : World β} {g : Winner ι} {i : ι}
  {b : β}

/-- The flag of the lock is not part of the resource. -/
theorem Resource.flag {f : Bool} (h : Resource host build A L reqs w₀ g w) :
    Resource host build A L reqs w₀ g { w with inProgress := f } := by
  cases g with
  | nobody => exact h
  | thread j =>
    obtain ⟨b, hb⟩ := h
    exact ⟨b, hb.delivered, hb.probed, hb.install, hb.prev, hb.state⟩

/-- What changes no file keeps the resource of the lock. -/
theorem Resource.scratch (h : Resource host build A L reqs w₀ g w) (hs : World.Scratch [] w w') :
    Resource host build A L reqs w₀ g w' := by
  cases g with
  | nobody => exact ⟨(hs.entry _ (by simp)).trans h.1, (hs.proc (by simp)).trans h.2⟩
  | thread j =>
    obtain ⟨b, hb⟩ := h
    refine ⟨b, hb.delivered, hb.probed, (hs.entry _ (by simp)).trans hb.install, ?_, ?_⟩
    · rw [hs.files (by simp)]
      exact hb.prev
    · rw [hs.files (by simp)]
      exact hb.state

/-- A marker is pending once a call has installed its image. -/
theorem Resource.state_ne {j : ι} (h : Resource host build A L reqs w₀ (.thread j) w) :
    w.files (L.path .state) ≠ none := by
  obtain ⟨b, hb⟩ := h
  obtain ⟨t, ht⟩ := hb.state
  rw [ht]
  exact Option.some_ne_none _

/-- A swap installs the image of the call. -/
theorem Resource.swapped (h : Resource host build A L reqs w₀ .nobody w)
    (hdelivered : Delivers A (reqs i).url (L.path .new) b) (hprobed : host.reportedVersion b ≠ "")
    (hswap : L.Swapped build (reqs i) b w w') :
    Resource host build A L reqs w₀ (.thread i) w' := by
  obtain ⟨old, hold, hprev⟩ := hswap.prev
  rw [World.files_of_entry h.1] at hold
  exact ⟨b, hdelivered, hprobed, hswap.install, ⟨old, hold, hprev⟩, hswap.state⟩

/-- What a call keeps, wherever it is stopped: the resource as it found it, or its own update where
nobody had won. -/
theorem Resource.reached (h : Resource host build A L reqs w₀ g w)
    (hexe : w₀.proc.binaryPath = L.path .install)
    (hw' : L.Reached build (reqs i) host A w w') :
    Resource host build A L reqs w₀ g w' ∨
      (g = .nobody ∧ Resource host build A L reqs w₀ (.thread i) w') := by
  cases hw' with
  | refused hs => exact .inl (h.scratch hs)
  | unswapped habsent hun =>
    cases g with
    | nobody =>
      have hentry := hun.scratch.entry (L.path .install) (by simp [Layout.work])
      have hproc := hun.proc (h.2 ▸ hexe)
      exact .inl ⟨hentry.trans h.1, hproc.trans h.2⟩
    | thread j => exact absurd habsent h.state_ne
  | swapped b habsent hdelivered hprobed hswap =>
    cases g with
    | nobody => exact .inr ⟨rfl, h.swapped hdelivered hprobed hswap⟩
    | thread j => exact absurd habsent h.state_ne

/-- A call that reports `updated` is the first one that has installed an image. -/
theorem Resource.ended {r : Except Exc ApplyResult} (h : Resource host build A L reqs w₀ g w)
    (hreached : L.Reached build (reqs i) host A w w')
    (hended : L.Ended build (reqs i) host A w r w') {res : ApplyResult} (hres : r = .ok res)
    (hst : res.st = .updated) :
    g = .nobody ∧ Resource host build A L reqs w₀ (.thread i) w' := by
  obtain ⟨b, hdelivered, hprobed, hswap, -⟩ := hended res hres hst
  cases g with
  | nobody => exact ⟨rfl, h.swapped hdelivered hprobed hswap⟩
  | thread j =>
    cases hreached with
    | refused hs => exact absurd (hs.mem_of_renamedSince hswap.renamed).1 (by simp)
    | unswapped habsent _ => exact absurd habsent h.state_ne
    | swapped _ habsent _ _ _ => exact absurd habsent h.state_ne

/-- Only the guard of the update touches the flag. -/
theorem inProgress_exec {o : SysOp β} (h : o.isGuard = false) (c : Choice β) :
    (exec host w o c).2.inProgress = w.inProgress := by
  cases o with
  | acquireInProgress => cases h
  | releaseInProgress => cases h
  | rename src dst =>
    simp only [exec]
    split
    · rfl
    · split
      · rfl
      · show (w.rename src dst).inProgress = w.inProgress
        unfold World.rename
        split <;> rfl
  | _ => simp only [exec] <;> (try split) <;> (try split) <;> rfl

/-- The body of a call is a critical section. -/
theorem applySection (hdir : (reqs i).stateDir = L.stateDir)
    (hexe : w₀.proc.binaryPath = L.path .install) (h : Resource host build A L reqs w₀ g w) :
    (applyMutex host build A L reqs w₀).Section (hostMachine host) A i g
      ((applyGuarded host build (reqs i)).ensure releaseInProgress)
      { w with inProgress := true } := by
  have h : Resource host build A L reqs w₀ g { w with inProgress := true } := h.flag
  have hpath : World.files { w with inProgress := true } (L.path .state) = none →
      w.proc.binaryPath = L.path .install := by
    intro habsent
    cases g with
    | nobody => exact h.2 ▸ hexe
    | thread j => exact absurd habsent h.state_ne
  have hops : AllOps (GuardedOp build (reqs i)) (applyGuarded host build (reqs i)) :=
    applyGuarded_ops
  have hflag := cwp_of_allOps (M := hostMachine host) (A := A)
    (J := fun v => v.inProgress = true) (w := { w with inProgress := true })
    (fun v o c ho hv => (inProgress_exec ho.2 c).trans hv) hops rfl
  refine Mutex.section_ensure (cwp_mono (cwp_and hflag (applyGuarded_checked hdir hpath)) ?_ ?_)
  · exact fun v hv => ⟨hv.1, h.reached hexe hv.2.1⟩
  · intro r v hv hr
    -- The last operation releases the lock, with the image of this call or without.
    have hrelease (hnot : ∀ res, r = .ok res → res.st ≠ .updated) : ∃ g', g ≤ g' ∧
        Resource host build A L reqs w₀ g' { v with inProgress := false } ∧
        ∀ res, r = .ok res → res.st = .updated → g' = .thread i := by
      rcases h.reached hexe hv.2.1 with hres | ⟨rfl, hres⟩
      · exact ⟨g, le_refl g, hres.flag, fun res hr' hst => absurd hst (hnot res hr')⟩
      · exact ⟨.thread i, .inl rfl, hres.flag, fun _ _ _ => rfl⟩
    have hrelease : ∃ g', g ≤ g' ∧
        Resource host build A L reqs w₀ g' { v with inProgress := false } ∧
        ∀ res, r = .ok res → res.st = .updated → g' = .thread i := by
      by_cases hupdated : ∃ res, r = .ok res ∧ res.st = .updated
      · obtain ⟨res, hres, hst⟩ := hupdated
        obtain ⟨rfl, hres'⟩ := h.ended hv.2.1 hr.2.1 hres hst
        exact ⟨.thread i, .inl rfl, hres'.flag, fun _ _ _ => rfl⟩
      · exact hrelease fun res hres hst => hupdated ⟨res, hres, hst⟩
    obtain ⟨g', hg, hres, hupdated⟩ := hrelease
    cases r with
    | ok a =>
      intro c _
      exact .inr ⟨Bool.false_ne_true, g', hg, hres, .inr ⟨.ok a, rfl, hupdated⟩⟩
    | error e =>
      intro c _
      exact .inr ⟨Bool.false_ne_true, g', hg, hres, .inr ⟨.error e, rfl, hupdated⟩⟩

/-- A call takes the lock first, or gives up. -/
theorem applyEnters (hdir : ∀ i, (reqs i).stateDir = L.stateDir)
    (hexe : w₀.proc.binaryPath = L.path .install) :
    (applyMutex host build A L reqs w₀).Enters (hostMachine host) A := by
  intro i g o k c w hout _
  rcases hout with hout | ⟨r, hr, -⟩
  case inr => cases hr
  unfold applyWithWatchdog at hout
  split at hout
  · cases hout
  · change Prog.call o k = Prog.call SysOp.acquireInProgress _ at hout
    cases hout
    -- With the flag set the call returns at once. Otherwise it is the critical section.
    refine ⟨fun hheld => ?_, fun hheld hfree => ?_⟩
    · have hheld : w.inProgress = true := hheld
      have hworld : (exec host w .acquireInProgress c).2 = w := by
        show { w with inProgress := true } = w
        rw [← hheld]
      refine ⟨hworld, .inr ?_⟩
      show ∃ r, Prog.result (if !(!w.inProgress) then _ else _) = some r ∧ _
      rw [hheld]
      exact ⟨_, rfl, fun res hres hst => by cases hres; cases hst⟩
    · have hheld : w.inProgress = false := by
        cases h : w.inProgress with
        | false => rfl
        | true => exact absurd h hheld
      refine .inr ⟨rfl, .inl hfree.flag, ?_⟩
      show Mutex.Section _ _ _ _ _ (if !(!w.inProgress) then _ else _) _
      rw [hheld]
      exact applySection (hdir i) hexe hfree

/-! ### The result -/

variable (host build) [DecidableEq ι]

/-- The calls as the threads of one process, each with its own request. -/
def applyPool (reqs : ι → ApplyRequest) (w : World β) :
    Pool (sysInterface β) Exc ApplyResult (World β) ι where
  threads i := applyWithWatchdog host build (reqs i)
  world := w

/-- The process after a schedule of its threads. -/
def appliesAfter (reqs : ι → ApplyRequest) (w : World β) (schedule : List (ι × Choice β)) :
    Pool (sysInterface β) Exc ApplyResult (World β) ι :=
  Pool.run (fun _ => hostMachine host) (fun _ => none) schedule (applyPool host build reqs w)

/-- The call of the thread has come to its end and has reported `updated`. -/
def Updated (s : Pool (sysInterface β) Exc ApplyResult (World β) ι) (i : ι) : Prop :=
  ∃ res, (s.threads i).result = some (.ok res) ∧ res.st = .updated

/-- A call that has not started has not reported `updated`. -/
theorem not_updated_start {req : ApplyRequest} {res : ApplyResult}
    (h : (applyWithWatchdog host build req).result = some (.ok res)) : res.st ≠ .updated := by
  unfold applyWithWatchdog at h
  split at h
  · cases h
    exact nofun
  · cases h

/-- Any number of updates may be asked for in one process, and their steps may interleave in any
order, with any failures. At every moment the installed binary is the one at the start, and no call
has reported `updated`, or it is the image of one call, with the marker of this call and the backup
of the binary at the start, and no other call reports `updated`. -/
theorem one_apply_in_process (reqs : ι → ApplyRequest) (hdir : ∀ i, (reqs i).stateDir = L.stateDir)
    {w : World β} (hexe : w.proc.binaryPath = L.path .install) (hidle : w.inProgress = false)
    {schedule : List (ι × Choice β)}
    (hadmits : Pool.Admits (fun _ => hostMachine host) (fun _ => none) A schedule
      (applyPool host build reqs w)) :
    let s := appliesAfter host build reqs w schedule
    (s.world.entry (L.path .install) = w.entry (L.path .install) ∧ ∀ i, ¬ Updated s i) ∨
      ∃ i b, Installs host build A L (reqs i) w b s.world ∧ ∀ j, Updated s j → j = i := by
  intro s
  have hstart : (applyMutex host build A L reqs w).Orderly (hostMachine host) A .nobody
      (applyPool host build reqs w) := by
    refine .inl ⟨?_, ⟨rfl, rfl⟩, fun i => .inl rfl⟩
    show ¬ w.inProgress = true
    rw [hidle]
    exact Bool.false_ne_true
  obtain ⟨g, -, horder⟩ := Pool.run_mutex (applyEnters hdir hexe) hstart hadmits
  -- A call outside the section that reports `updated` is the one that left its mark.
  have hout {j : ι} (hj : (applyMutex host build A L reqs w).outside j g (s.threads j))
      (hupdated : Updated s j) : g = .thread j := by
    obtain ⟨res, hres, hst⟩ := hupdated
    rcases hj with hj | ⟨r, hr, hwinner⟩
    · rw [hj] at hres
      exact absurd hst (not_updated_start host build hres)
    · rw [hres] at hr
      cases hr
      exact hwinner res rfl hst
  rcases horder with ⟨-, hfree, houts⟩ | ⟨-, holder, hinside, hsection, houts⟩
  · cases g with
    | nobody => exact .inl ⟨hfree.1, fun i hi => by cases hout (houts i) hi⟩
    | thread i =>
      obtain ⟨b, hb⟩ := hfree
      exact .inr ⟨i, b, hb, fun j hj => by cases hout (houts j) hj; rfl⟩
  · -- The thread in its section has no result yet.
    have hpending : ¬ Updated s holder := by
      rintro ⟨res, hres, -⟩
      rw [Prog.result_eq_ok] at hres
      have hsection : (applyMutex host build A L reqs w).Section (hostMachine host) A holder g
          (s.threads holder) s.world := hsection
      rw [hres] at hsection
      exact hsection
    have hothers {j : ι} (hj : Updated s j) : g = .thread j :=
      hout (houts j fun h => hpending (h ▸ hj)) hj
    rcases hinside with hres | ⟨rfl, hres⟩
    · cases g with
      | nobody => exact .inl ⟨hres.1, fun i hi => by cases hothers hi⟩
      | thread i =>
        obtain ⟨b, hb⟩ := hres
        exact .inr ⟨i, b, hb, fun j hj => by cases hothers hj; rfl⟩
    · obtain ⟨b, hb⟩ := hres
      exact .inr ⟨holder, b, hb, fun j hj => by cases hothers hj⟩

end

/-! ### A sample -/

/-- Two threads that ask for the version 2, one after the other. -/
def sampleSchedule : List (Bool × Choice Nat) :=
  sampleAnswers.map (fun c => (true, c)) ++ sampleAnswers.map fun c => (false, c)

/-- Two threads of one process that update at the same time, with the same state directory. -/
theorem one_apply_in_process_sample :
    let s := appliesAfter sampleHost sampleBuild (fun _ : Bool => sampleRequest "2") sampleWorld
      sampleSchedule
    (s.world.entry Layout.system.install = sampleWorld.entry Layout.system.install ∧
        ∀ i, ¬ Updated s i) ∨
      ∃ i b, Installs sampleHost sampleBuild (fun _ _ => True) Layout.system (sampleRequest "2")
        sampleWorld b s.world ∧ ∀ j, Updated s j → j = i :=
  one_apply_in_process sampleHost sampleBuild (L := Layout.system) (fun _ => sampleRequest "2")
    (fun _ => rfl) rfl rfl (Pool.meets_of_forall (fun _ _ _ _ _ _ => trivial) _)

end ThinrAgent
