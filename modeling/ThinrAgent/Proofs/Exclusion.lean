import Mathlib.Data.Fintype.Basic
import ThinrAgent.Proofs.OneApply
import ThinrAgent.System.Processes

/-!
# `ThinrAgent.Proofs.Exclusion`: updates in several processes

The daemon and the command line may call `apply_with_watchdog` at a time, each in its own
process. The flag `in_progress` is a variable of a process, so between processes only the
marker stands. A call looks for it first (`fsExists` in `applyGuarded`), and writes its own
much later, behind a whole download.

`Exclusive` is what one expects of the two calls. One is ahead at most, the steps of the
other leave every file as it is, and the new binary is never installed without its marker
and the backup of the binary at the start. The code has this exactly along the schedules in
which no call looks into that window (`SafeLook`): a look finds no marker only where every
other call that has found none before has come to its end. `exclusive_iff` says so for any
number of processes and any answers.

The proof is an invariant (`InTurn`). A process is outside until its look finds no marker.
Outside, it performs no operation that writes (`Outside.perform`), so the one process that is
inside goes on as if it were alone, and the result for a call that runs alone
(`applyGuarded_checked`) is what it has reached. A call that ends without an update leaves the
device as it was at the start (`RunsAlone.fresh`), and the next one may pass.

`not_exclusive_sample` is a schedule that is not safe, in which nothing fails. Both calls
report `updated`, and the backup holds the new binary.
-/

set_option autoImplicit false

namespace ThinrAgent

open Effects

/-- One call of `apply_with_watchdog` in each process, and the device that the processes share. -/
abbrev Applies (β ι : Type) := Pool (sysInterface β) Exc ApplyResult (Processes β ι) ι

/-! ### The property -/

section Property
variable {β ι : Type}

/-- The process is past its look for a marker, which has found none, and its call has not come to
its end. -/
def Within (s : Applies β ι) (i : ι) : Prop :=
  s.world.passed i = true ∧ ¬ (s.threads i).Done

/-- The call of the process has come to its end and has reported `updated`, so a restart is to
follow. -/
def ReportsUpdated (s : Applies β ι) (i : ι) : Prop :=
  ∃ res, (s.threads i).result = some (.ok res) ∧ res.st = .updated

/-- The process has got past the marker and has not given up: its call goes on, or it has
updated. -/
def Ahead (s : Applies β ι) (i : ι) : Prop := Within s i ∨ ReportsUpdated s i

/-- A new binary is installed, the marker of the request is there, and the backup holds the binary
`old`. -/
structure UpdateInPlace (L : Layout) (build : Build) (req : ApplyRequest)
    (old : Option (Content β)) (s : Processes β ι) : Prop where
  install : ∃ b, s.entry (L.path .install) = some (.image b, false)
  state : ∃ t, (s.entry (L.path .state)).map Prod.fst = some (L.pendingContent build req t)
  prev : old ≠ none ∧ (s.entry (L.path .prev)).map Prod.fst = old

/-- Processes that are about to call `apply_with_watchdog`: they run from one executable, which is
the installed binary, and no call is under way. -/
structure Idle (L : Layout) (start : Processes β ι) : Prop where
  install : ∀ i, (start.proc i).binaryPath = L.path .install
  exe : ∀ i j, (start.proc i).exe = (start.proc j).exe
  free : ∀ i, start.inProgress i = false
  unpassed : ∀ i, start.passed i = false

/-- Each process is about to call `apply_with_watchdog` with its request. The builds may differ, as
after an update that waits for its restart. -/
def startApplies (host : Host β) (builds : ι → Build) (reqs : ι → ApplyRequest)
    (start : Processes β ι) : Applies β ι where
  threads i := applyWithWatchdog host (builds i) (reqs i)
  world := start

/-- The move lets the process get past its look: its next operation looks for a file, the call
works, and there is no such file. -/
def passes (s : Applies β ι) (m : ι × Choice β) : Bool :=
  match s.threads m.1 with
  | .call (.exists p) _ => m.2.error.isNone && (s.world.entry p).isNone
  | _ => false

/-- Where the look of a process finds no file, every other process that has found none before has
come to its end. -/
def SafeLook (s : Applies β ι) (m : ι × Choice β) : Prop :=
  passes s m = true → ∀ j, j ≠ m.1 → s.world.passed j = true → (s.threads j).Done

variable [DecidableEq ι]

/-- Whether a look is safe is decided by the processes, so sample schedules are judged by
evaluation. -/
instance [Fintype ι] (s : Applies β ι) (m : ι × Choice β) : Decidable (SafeLook s m) := by
  unfold SafeLook
  infer_instance

/-- One step of a process. No operation waits for another process, which is the trouble with this
protocol. -/
def Applies.next (host : Host β) (s : Applies β ι) (m : ι × Choice β) : Applies β ι :=
  Pool.step (processMachine host) (fun _ => none) s m

/-- The device after a schedule, which says which process performs the next operation and how it is
answered. -/
def Applies.after (host : Host β) (s : Applies β ι) (ms : List (ι × Choice β)) : Applies β ι :=
  Pool.run (processMachine host) (fun _ => none) ms s

/-- The calls exclude each other. One process is ahead at most, and the next step of any other
changes no file. The installed binary is the one at the start and no call has reported `updated`, or
an update is in place, with the binary at the start as its backup, and no other call reports one. -/
structure Exclusive (host : Host β) (builds : ι → Build) (reqs : ι → ApplyRequest) (L : Layout)
    (start : Processes β ι) (s : Applies β ι) : Prop where
  alone : ∀ i j, Ahead s i → Ahead s j → i = j
  untouched : ∀ i j c, i ≠ j → Ahead s i → (s.next host (j, c)).world.entry = s.world.entry
  outcome : (s.world.entry (L.path .install) = start.entry (L.path .install) ∧
      ∀ i, ¬ ReportsUpdated s i) ∨
    ∃ i, UpdateInPlace L (builds i) (reqs i)
        ((start.entry (L.path .install)).map Prod.fst) s.world ∧
      ∀ j, ReportsUpdated s j → j = i

end Property

/-! ### The invariant -/

section Invariant
variable {β ι : Type} (host : Host β) (builds : ι → Build) (reqs : ι → ApplyRequest) (L : Layout)

/-- What is left of a call that has not got past the marker: it releases the guard, and reports no
update. -/
def Leaving (p : SysM β ApplyResult) : Prop :=
  Until (fun o : SysOp β => o = .releaseInProgress) (fun _ _ => False) (fun _ => True)
    (fun res => res.st ≠ .updated) p

/-- A process that is not past its look, by its program, its ghost and its guard: it has not called
yet, it has the guard and is about to look, or it leaves. One that has passed and left without an
update is outside again. -/
inductive Outside (i : ι) : SysM β ApplyResult → Bool → Bool → Prop where
  | waiting : Outside i (applyWithWatchdog host (builds i) (reqs i)) false false
  | looking {busy : Bool} :
      Outside i ((applyGuarded host (builds i) (reqs i)).ensure releaseInProgress) false busy
  | leaving {p : SysM β ApplyResult} {passed busy : Bool} (h : Leaving p)
      (hend : passed = true → p.Done) : Outside i p passed busy

/-- The process `i` is outside in the state of the processes. -/
abbrev OutsideAt (s : Applies β ι) (i : ι) : Prop :=
  Outside host builds reqs i (s.threads i) (s.world.passed i) (s.world.inProgress i)

/-- The binary is the one at the start, and every process runs from it. A call that looks now starts
from here. -/
structure Fresh (start s : Processes β ι) : Prop where
  install : s.entry (L.path .install) = start.entry (L.path .install)
  exe : ∀ i, (s.proc i).binaryPath = L.path .install

/-- The process `h` has found no marker in the world `looked`, in which the binary is the one at the
start, and what it has reached since then is what it would have reached alone. -/
structure RunsAlone (start : Processes β ι) (looked : World β) (h : ι) (s : Applies β ι) :
    Prop where
  install : looked.entry (L.path .install) = start.entry (L.path .install)
  exe : looked.proc.binaryPath = L.path .install
  absent : looked.files (L.path .state) = none
  passed : s.world.passed h = true
  run : cwp (hostMachine host) (anyAnswer (sysInterface β) (Choice β))
    (L.Reached (builds h) (reqs h) host (anyAnswer (sysInterface β) (Choice β)) looked)
    (s.threads h)
    (L.Ended (builds h) (reqs h) host (anyAnswer (sysInterface β) (Choice β)) looked)
    (s.world.view h)

/-- The invariant: every process is outside and the device is fresh, or all but one are, and this
one has got past the marker alone. -/
inductive InTurn (start : Processes β ι) (s : Applies β ι) : Prop where
  | nobody (hfresh : Fresh L start s.world) (hout : ∀ i, OutsideAt host builds reqs s i)
  | holder (h : ι) (looked : World β) (halone : RunsAlone host builds reqs L start looked h s)
      (hout : ∀ j, j ≠ h → OutsideAt host builds reqs s j)

variable {host builds reqs L} {start : Processes β ι} {s : Applies β ι} {i : ι} {c : Choice β}
  {o : SysOp β} {k : o.Res → SysM β ApplyResult} {w : World β} {passed : Bool}

/-! ### One process -/

/-- A program with something to do behind it has not ended, whether it returns or throws. -/
theorem not_done_ensure {α : Type} (p : SysM β α) : ¬ (p.ensure releaseInProgress).Done := by
  cases p <;> exact id

/-- A call that is refused releases the guard and leaves. Its result is not `updated`. -/
theorem leaving_ret {res : ApplyResult} (h : res.st ≠ .updated) :
    Leaving ((.ret res : SysM β ApplyResult).ensure releaseInProgress) :=
  .call rfl (fun _ => id) fun _ => h

/-- A call whose look throws releases the guard and leaves, too. Its caller gets the exception. -/
theorem leaving_throw {e : Exc} :
    Leaving ((.throw e : SysM β ApplyResult).ensure releaseInProgress) :=
  .call rfl (fun _ => id) fun _ => trivial

/-- One operation of a process outside: it changes no file, and the process stays outside, or gets
past its look for the marker. -/
theorem Outside.perform
    (h : Outside host builds reqs i (.call o k : SysM β ApplyResult) passed w.inProgress) :
    o.KeepsDisk ∧
      ((o.findsNone (exec host w o c).1 = false ∧
        Outside host builds reqs i (k (exec host w o c).1) passed
          (exec host w o c).2.inProgress) ∨
      (o = .exists (stateFile (reqs i).stateDir) ∧
        w.files (stateFile (reqs i).stateDir) = none ∧ c.error = none ∧
        (.call o k : SysM β ApplyResult) =
          (applyGuarded host (builds i) (reqs i)).ensure releaseInProgress)) := by
  generalize hp : (.call o k : SysM β ApplyResult) = p at h
  generalize hbusy : w.inProgress = busy at h
  cases h with
  | waiting =>
    unfold applyWithWatchdog at hp
    split at hp
    · cases hp
    · change (.call o k : SysM β ApplyResult) = .call SysOp.acquireInProgress _ at hp
      cases hp
      refine ⟨.acquire, .inl ⟨rfl, ?_⟩⟩
      show Outside host builds reqs i (if !(!w.inProgress) then _ else _) false true
      rw [hbusy]
      exact .looking
  | looking =>
    change (.call o k : SysM β ApplyResult) =
      .call (SysOp.exists (stateFile (reqs i).stateDir)) _ at hp
    cases hp
    refine ⟨.look _, ?_⟩
    cases he : c.error with
    | some e =>
      have hres : (exec host w (.exists (stateFile (reqs i).stateDir)) c).1 = none := by
        simp only [exec, he]
        rfl
      rw [hres]
      exact .inl ⟨rfl, .leaving leaving_throw (by simp)⟩
    | none =>
      cases hfile : w.files (stateFile (reqs i).stateDir) with
      | none => exact .inr ⟨rfl, rfl, rfl, rfl⟩
      | some content =>
        have hres : (exec host w (.exists (stateFile (reqs i).stateDir)) c).1 = some true := by
          simp only [exec, he, hfile]
          rfl
        rw [hres]
        exact .inl ⟨rfl, .leaving (leaving_ret (by simp)) (by simp)⟩
  | leaving h hend =>
    subst hp
    obtain ⟨rfl, hk⟩ := h
    have hpassed : passed = false := by
      cases passed with
      | false => rfl
      | true => exact (hend rfl).elim
    subst hpassed
    exact ⟨.release, .inl ⟨rfl, .leaving ((hk _).2 id) (by simp)⟩⟩

/-- A process outside is not past its look: where it has got past, its call has come to its end. -/
theorem Outside.not_within {busy : Bool}
    (h : Outside host builds reqs i (s.threads i) (s.world.passed i) busy) : ¬ Within s i := by
  rintro ⟨hpassed, hopen⟩
  rw [hpassed] at h
  generalize hp : s.threads i = p at h hopen
  cases h with
  | leaving _ hend => exact hopen (hend rfl)

/-- A process outside does not report an update: it has not called yet, or it was refused, or it has
failed. -/
theorem Outside.not_reports {busy : Bool}
    (h : Outside host builds reqs i (s.threads i) passed busy) : ¬ ReportsUpdated s i := by
  rintro ⟨res, hres, hst⟩
  generalize s.threads i = p at h hres
  cases h with
  | waiting => exact not_updated_start host (builds i) hres hst
  | looking => cases hres
  | leaving h _ =>
    rw [Prog.result_eq_ok] at hres
    subst hres
    exact h hst

/-- So it is not ahead of the others. -/
theorem Outside.not_ahead (h : OutsideAt host builds reqs s i) : ¬ Ahead s i :=
  not_or.mpr ⟨h.not_within, h.not_reports⟩

/-- The call from its look on, as if the process were alone: what it reaches, and what holds when it
has released the guard. -/
theorem ensured_spec {A : SysOp β → Choice β → Prop} {build : Build} {req : ApplyRequest}
    (hdir : req.stateDir = L.stateDir) (hexe : w.proc.binaryPath = L.path .install) :
    cwp (hostMachine host) A (L.Reached build req host A w)
      ((applyGuarded host build req).ensure releaseInProgress)
      (L.Ended build req host A w) w := by
  refine cwp_ensure (cwp_mono (applyGuarded_checked hdir fun _ => hexe) (fun v h => h.1) ?_)
  intro r v hv hr
  exact ⟨hv.1, fun _ _ => ⟨hv.1.flag, hr.1.flag⟩⟩

/-- A process that is answered that there is no file gets past its look. -/
theorem passes_of {p : Path} (hi : s.threads i = .call o k) (ho : o = .exists p)
    (habsent : (s.world.view i).files p = none) (hc : c.error = none) :
    passes s (i, c) = true := by
  subst ho
  have hentry : s.world.entry p = none := by
    rw [World.files_eq] at habsent
    exact Option.map_eq_none_iff.mp habsent
  simp [passes, hi, hc, hentry]

/-- A process that gets past its look has been told that there is no file, which the ghost
records. -/
theorem findsNone_of_passes (hi : s.threads i = .call o k) (h : passes s (i, c) = true) :
    o.findsNone (exec host (s.world.view i) o c).1 = true := by
  cases o with
  | «exists» p =>
    simp only [passes, hi, Bool.and_eq_true, Option.isNone_iff_eq_none] at h
    have hentry : (s.world.view i).files p = none := by
      rw [World.files_eq]
      exact Option.map_eq_none_iff.mpr h.2
    simp [exec, h.1, hentry, SysOp.findsNone]
  | _ => simp [passes, hi] at h

/-! ### A process that has ended -/

/-- A swap that started from the binary at the start puts the update in place, as every process sees
it. -/
theorem UpdateInPlace.of_swapped {build : Build} {req : ApplyRequest} {b : β} {looked : World β}
    {h : ι} {world : Processes β ι}
    (hinstall : looked.entry (L.path .install) = start.entry (L.path .install))
    (hswap : L.Swapped build req b looked (world.view h)) :
    UpdateInPlace L build req ((start.entry (L.path .install)).map Prod.fst) world := by
  obtain ⟨old, hold, hprev⟩ := hswap.prev
  rw [World.files_eq, hinstall] at hold
  refine ⟨⟨b, hswap.install⟩, hswap.state, ?_, ?_⟩
  · rw [hold]
    exact Option.some_ne_none _
  · rw [hold]
    exact hprev

/-- A call that has got past the marker and has come to its end without leaving one reports no
update. -/
theorem RunsAlone.leaving {looked : World β} {h : ι}
    (halone : RunsAlone host builds reqs L start looked h s)
    (hdone : (s.threads h).Done) (habsent : (s.world.view h).files (L.path .state) = none) :
    Leaving (s.threads h) := by
  have hrun := halone.run
  generalize s.threads h = p at hdone hrun
  cases p with
  | call o k => exact hdone.elim
  | throw e => trivial
  | ret res =>
    intro hst
    obtain ⟨b, -, -, hswap, -⟩ := hrun.2 res rfl hst
    obtain ⟨t, ht⟩ := hswap.state
    rw [habsent] at ht
    cases ht

/-- While the process that has got past the marker leaves none, the device is fresh: it has not
swapped, and the processes run from the installed binary. -/
theorem RunsAlone.fresh {looked : World β} {h : ι}
    (halone : RunsAlone host builds reqs L start looked h s)
    (habsent : (s.world.view h).files (L.path .state) = none)
    (hsame : ∀ i, (s.world.proc i).exe = (s.world.proc h).exe) : Fresh L start s.world := by
  have kept (hentry : (s.world.view h).entry (L.path .install) = looked.entry (L.path .install))
      (hproc : (s.world.view h).proc = looked.proc) : Fresh L start s.world := by
    refine ⟨hentry.trans halone.install, fun i => ?_⟩
    have hpath : (s.world.view h).proc.binaryPath = L.path .install := by
      rw [hproc, halone.exe]
    rw [Process.binaryPath, hsame i]
    exact hpath
  cases cwp_inv halone.run with
  | refused hs => exact kept (hs.entry _ (by simp)) (hs.proc (by simp))
  | unswapped _ hun =>
    exact kept (hun.scratch.entry _ (by simp [Layout.work])) (hun.proc halone.exe)
  | swapped b _ _ _ hswap =>
    obtain ⟨t, ht⟩ := hswap.state
    rw [habsent] at ht
    cases ht

/-! ### One step -/

variable [DecidableEq ι]

/-- A process that is about to perform an operation performs it in its step. No operation waits. -/
theorem Applies.next_call (hi : s.threads i = .call o k) :
    s.next host (i, c) = s.perform (processMachine host) i c o k := by
  unfold Applies.next Pool.step
  rw [hi]
  rfl

/-- A process whose call has come to its end does nothing in its step. -/
theorem Applies.next_done (hdone : (s.threads i).Done) : s.next host (i, c) = s := by
  unfold Applies.next Pool.step
  cases hi : s.threads i with
  | ret res => rfl
  | throw e => rfl
  | call o k =>
    rw [hi] at hdone
    exact hdone.elim

/-- The process that performs an operation sees what it would see alone. -/
theorem view_perform_self : (s.perform (processMachine host) i c o k).world.view i =
    (exec host (s.world.view i) o c).2 := Processes.view_exec_self

/-- A process outside stays so when another one performs an operation: its program, its ghost and
its guard are its own. -/
theorem Outside.perform_other {j : ι} (hj : j ≠ i) (h : OutsideAt host builds reqs s j) :
    OutsideAt host builds reqs (s.perform (processMachine host) i c o k) j := by
  rw [OutsideAt, Pool.threads_perform_ne hj]
  show Outside host builds reqs j _ (Function.update s.world.passed i _ j)
    (Function.update s.world.inProgress i _ j)
  rwa [Function.update_of_ne hj, Function.update_of_ne hj]

/-- A process outside that has not got past its look by its own operation stays outside. -/
theorem Outside.perform_self
    (hnone : o.findsNone (exec host (s.world.view i) o c).1 = false)
    (hnext : Outside host builds reqs i (k (exec host (s.world.view i) o c).1)
      (s.world.passed i) (exec host (s.world.view i) o c).2.inProgress) :
    OutsideAt host builds reqs (s.perform (processMachine host) i c o k) i := by
  rw [OutsideAt, Pool.threads_perform_self]
  show Outside host builds reqs i _
    (Function.update s.world.passed i (s.world.passed i || o.findsNone _) i)
    (Function.update s.world.inProgress i _ i)
  rw [Function.update_self, Function.update_self, hnone, Bool.or_false]
  exact hnext

/-- A process that gets past its look at a fresh device goes on from there as if it were alone. -/
theorem InTurn.pass (hdir : (reqs i).stateDir = L.stateDir) (hfresh : Fresh L start s.world)
    (hi : s.threads i = .call o k) (ho : o = .exists (stateFile (reqs i).stateDir))
    (habsent : (s.world.view i).files (stateFile (reqs i).stateDir) = none)
    (hc : c.error = none)
    (hp : (.call o k : SysM β ApplyResult) =
      (applyGuarded host (builds i) (reqs i)).ensure releaseInProgress)
    (hout : ∀ j, j ≠ i → OutsideAt host builds reqs s j) :
    InTurn host builds reqs L start (s.perform (processMachine host) i c o k) := by
  have hrun : cwp (hostMachine host) (anyAnswer (sysInterface β) (Choice β))
      (L.Reached (builds i) (reqs i) host (anyAnswer (sysInterface β) (Choice β))
        (s.world.view i))
      ((applyGuarded host (builds i) (reqs i)).ensure releaseInProgress)
      (L.Ended (builds i) (reqs i) host (anyAnswer (sysInterface β) (Choice β)) (s.world.view i))
      (s.world.view i) := ensured_spec hdir (hfresh.exe i)
  rw [← hp] at hrun
  have hnone : (s.world.view i).files (L.path .state) = none := by
    rw [hdir, L.stateFile_stateDir] at habsent
    exact habsent
  refine .holder i (s.world.view i) ⟨hfresh.install, hfresh.exe i, hnone, ?_, ?_⟩
    fun j hj => (hout j hj).perform_other hj
  · show Function.update s.world.passed i (s.world.passed i || o.findsNone _) i = true
    rw [Function.update_self, findsNone_of_passes hi (passes_of hi ho habsent hc), Bool.or_true]
  · rw [Pool.threads_perform_self, view_perform_self]
    exact hrun.2 c trivial

/-- An operation that the process past the marker performs is the one that it would perform
alone. -/
theorem RunsAlone.perform_self {looked : World β}
    (h : RunsAlone host builds reqs L start looked i s) (hi : s.threads i = .call o k) :
    RunsAlone host builds reqs L start looked i (s.perform (processMachine host) i c o k) := by
  have hrun := h.run
  rw [hi] at hrun
  refine ⟨h.install, h.exe, h.absent, ?_, ?_⟩
  · show Function.update s.world.passed i _ i = true
    rw [Function.update_self, h.passed, Bool.true_or]
  · rw [Pool.threads_perform_self, view_perform_self]
    exact hrun.2 c trivial

/-- An operation of another process that keeps the disk does not disturb the process past the
marker. -/
theorem RunsAlone.perform_other {looked : World β} {h : ι} (hne : h ≠ i) (hkeeps : o.KeepsDisk)
    (halone : RunsAlone host builds reqs L start looked h s) :
    RunsAlone host builds reqs L start looked h (s.perform (processMachine host) i c o k) := by
  refine ⟨halone.install, halone.exe, halone.absent, ?_, ?_⟩
  · show Function.update s.world.passed i _ h = true
    rw [Function.update_of_ne hne, halone.passed]
  · have hview : (s.perform (processMachine host) i c o k).world.view h = s.world.view h :=
      Processes.view_exec_of_keepsDisk hkeeps hne
    rw [Pool.threads_perform_ne hne, hview]
    exact halone.run

/-- One operation keeps the invariant. The process that performs it is past the marker, or it is
outside, and then it stays outside or gets past its look. -/
theorem InTurn.perform (hdir : ∀ i, (reqs i).stateDir = L.stateDir)
    (hsame : ∀ i j, (s.world.proc i).exe = (s.world.proc j).exe)
    (h : InTurn host builds reqs L start s) (hsafe : SafeLook s (i, c))
    (hi : s.threads i = .call o k) :
    InTurn host builds reqs L start (s.perform (processMachine host) i c o k) := by
  cases h with
  | nobody hfresh hout =>
    have hthread := hout i
    rw [OutsideAt, hi] at hthread
    obtain ⟨hkeeps, ⟨hnone, hnext⟩ | ⟨ho, habsent, hc, hp⟩⟩ :=
      Outside.perform (w := s.world.view i) (c := c) hthread
    · refine .nobody ⟨?_, fun j => ?_⟩ fun j => ?_
      · exact (congrFun (Processes.entry_exec_of_keepsDisk hkeeps) _).trans hfresh.install
      · exact (congrArg Process.binaryPath
          (congrFun (Processes.proc_exec_of_keepsDisk hkeeps) j)).trans (hfresh.exe j)
      · by_cases hj : j = i
        · subst hj
          exact .perform_self hnone hnext
        · exact (hout j).perform_other hj
    · exact pass (hdir i) hfresh hi ho habsent hc hp fun j _ => hout j
  | holder h looked halone hout =>
    by_cases hih : i = h
    · subst hih
      exact .holder i looked (halone.perform_self hi) fun j hj => (hout j hj).perform_other hj
    · have hthread := hout i hih
      rw [OutsideAt, hi] at hthread
      obtain ⟨hkeeps, ⟨hnone, hnext⟩ | ⟨ho, hmissing, hc, hp⟩⟩ :=
        Outside.perform (w := s.world.view i) (c := c) hthread
      · refine .holder h looked (halone.perform_other (Ne.symm hih) hkeeps) fun j hj => ?_
        by_cases hji : j = i
        · subst hji
          exact .perform_self hnone hnext
        · exact (hout j hj).perform_other hji
      · -- It gets past its look, so the one before it has ended, and has left no marker.
        have hdone : (s.threads h).Done :=
          hsafe (passes_of hi ho hmissing hc) h (Ne.symm hih) halone.passed
        have habsent : (s.world.view h).files (L.path .state) = none := by
          rw [hdir i, L.stateFile_stateDir] at hmissing
          exact hmissing
        refine pass (hdir i) (halone.fresh habsent fun j => hsame j h) hi ho hmissing hc hp
          fun j _ => ?_
        by_cases hjh : j = h
        · subst hjh
          exact .leaving (halone.leaving hdone habsent) fun _ => hdone
        · exact hout j hjh

/-- One step keeps the invariant, and the processes still run from one executable. A process whose
call has ended does nothing. -/
theorem InTurn.step (hdir : ∀ i, (reqs i).stateDir = L.stateDir) {m : ι × Choice β}
    (h : InTurn host builds reqs L start s)
    (hsame : ∀ i j, (s.world.proc i).exe = (s.world.proc j).exe) (hsafe : SafeLook s m) :
    InTurn host builds reqs L start (s.next host m) ∧
      ∀ i j, ((s.next host m).world.proc i).exe = ((s.next host m).world.proc j).exe := by
  obtain ⟨i, c⟩ := m
  cases hi : s.threads i with
  | ret res =>
    rw [Applies.next_done (by rw [hi]; trivial)]
    exact ⟨h, hsame⟩
  | throw e =>
    rw [Applies.next_done (by rw [hi]; trivial)]
    exact ⟨h, hsame⟩
  | call o k =>
    rw [Applies.next_call hi]
    refine ⟨h.perform hdir hsame hsafe hi, fun j j' => ?_⟩
    have hall : ∀ j, ((s.perform (processMachine host) i c o k).world.proc j).exe =
        (exec host (s.world.view i) o c).2.proc.exe := Processes.exe_exec fun j => hsame j i
    exact (hall j).trans (hall j').symm

/-! ### The property from the invariant -/

/-- A step of a process outside changes no file, whichever operation it performs and however it is
answered. -/
theorem Outside.entry_next (h : OutsideAt host builds reqs s i) :
    (s.next host (i, c)).world.entry = s.world.entry := by
  cases hi : s.threads i with
  | ret res => rw [Applies.next_done (by rw [hi]; trivial)]
  | throw e => rw [Applies.next_done (by rw [hi]; trivial)]
  | call o k =>
    rw [OutsideAt, hi] at h
    rw [Applies.next_call hi]
    exact Processes.entry_exec_of_keepsDisk (Outside.perform (w := s.world.view i) (c := c) h).1

/-- The calls exclude each other while they are in turn: what the process past the marker has
reached is the outcome. -/
theorem InTurn.exclusive (h : InTurn host builds reqs L start s) :
    Exclusive host builds reqs L start s := by
  cases h with
  | nobody hfresh hout =>
    exact ⟨fun i _ hi => absurd hi (hout i).not_ahead,
      fun i _ _ _ hi => absurd hi (hout i).not_ahead,
      .inl ⟨hfresh.install, fun i => (hout i).not_reports⟩⟩
  | holder h looked halone hout =>
    have eq_of_ahead {i : ι} (hi : Ahead s i) : i = h :=
      not_not.mp fun hne => (hout i hne).not_ahead hi
    have eq_of_reports (i : ι) (hi : ReportsUpdated s i) : i = h := eq_of_ahead (.inr hi)
    refine ⟨fun i j hi hj => (eq_of_ahead hi).trans (eq_of_ahead hj).symm, ?_, ?_⟩
    · intro i j c hij hi
      exact (hout j fun hjh => hij ((eq_of_ahead hi).trans hjh.symm)).entry_next
    · by_cases hreports : ReportsUpdated s h
      · obtain ⟨res, hres, hst⟩ := hreports
        have hrun := halone.run
        rw [Prog.result_eq_ok] at hres
        rw [hres] at hrun
        obtain ⟨b, -, -, hswap, -⟩ := hrun.2 res rfl hst
        exact .inr ⟨h, .of_swapped halone.install hswap, eq_of_reports⟩
      · have hnone (i : ι) (hi : ReportsUpdated s i) : False :=
          hreports (eq_of_reports i hi ▸ hi)
        cases cwp_inv halone.run with
        | refused hs => exact .inl ⟨(hs.entry _ (by simp)).trans halone.install, hnone⟩
        | unswapped _ hun =>
          have hentry := hun.scratch.entry (L.path .install) (by simp [Layout.work])
          exact .inl ⟨hentry.trans halone.install, hnone⟩
        | swapped b _ _ _ hswap =>
          exact .inr ⟨h, .of_swapped halone.install hswap, eq_of_reports⟩

/-- A look that is not safe lets a second process get past the marker, next to the one that goes
on. -/
theorem InTurn.not_exclusive {m : ι × Choice β} (h : InTurn host builds reqs L start s)
    (hsafe : ¬ SafeLook s m) : ¬ Exclusive host builds reqs L start (s.next host m) := by
  obtain ⟨i, c⟩ := m
  simp only [SafeLook, not_forall] at hsafe
  obtain ⟨hpasses, j, hji, hpassed, hopen⟩ := hsafe
  have hwithin : Within s j := ⟨hpassed, hopen⟩
  cases h with
  | nobody _ hout => exact absurd hwithin (hout j).not_within
  | holder h looked halone hout =>
    have hjh : j = h := not_not.mp fun hne => (hout j hne).not_within hwithin
    subst hjh
    have hthread := hout i (Ne.symm hji)
    cases hi : s.threads i with
    | ret res => simp [passes, hi] at hpasses
    | throw e => simp [passes, hi] at hpasses
    | call o k =>
      have hpass : o.findsNone (exec host (s.world.view i) o c).1 = true :=
        findsNone_of_passes hi hpasses
      rw [OutsideAt, hi] at hthread
      obtain ⟨-, ⟨hnone, -⟩ | ⟨ho, -, -, hp⟩⟩ :=
        Outside.perform (w := s.world.view i) (c := c) hthread
      · rw [hnone] at hpass
        cases hpass
      · -- Both have found no marker now, and neither has come to its end.
        rw [Applies.next_call hi]
        intro hexclusive
        refine hji (hexclusive.alone j i (.inl ⟨?_, ?_⟩) (.inl ⟨?_, ?_⟩))
        · show Function.update s.world.passed i _ j = true
          rw [Function.update_of_ne hji]
          exact hpassed
        · rw [Pool.threads_perform_ne hji]
          exact hopen
        · show Function.update s.world.passed i (s.world.passed i || o.findsNone _) i = true
          rw [Function.update_self, hpass, Bool.or_true]
        · rw [Pool.threads_perform_self]
          subst ho
          change (.call (.exists (stateFile (reqs i).stateDir)) k : SysM β ApplyResult) =
            .call (SysOp.exists (stateFile (reqs i).stateDir)) _ at hp
          cases hp
          exact not_done_ensure _

end Invariant

/-! ### The result -/

section Result
variable {β ι : Type} [DecidableEq ι] {host : Host β} {builds : ι → Build}
  {reqs : ι → ApplyRequest} {L : Layout}

/-- Any number of processes may each call `apply_with_watchdog` for the installed binary, with one
state directory. Their steps may interleave in any order, with any answers. The calls exclude each
other throughout exactly when no look of a call finds the marker missing while another call, which
has found it missing before, goes on. -/
theorem exclusive_iff (hdir : ∀ i, (reqs i).stateDir = L.stateDir) {start : Processes β ι}
    (hidle : Idle L start) (ms : List (ι × Choice β)) :
    (∀ ms', ms' <+: ms → Exclusive host builds reqs L start
      ((startApplies host builds reqs start).after host ms')) ↔
    Pool.Meets (processMachine host) (fun _ => none) SafeLook ms
      (startApplies host builds reqs start) := by
  refine Pool.meets_iff (J := fun s => InTurn host builds reqs L start s ∧
    ∀ i j, (s.world.proc i).exe = (s.world.proc j).exe) (fun s h => h.1.exclusive)
    (fun s m h => h.1.step hdir h.2) (fun s m h => h.1.not_exclusive) ⟨?_, hidle.exe⟩ ms
  refine .nobody ⟨rfl, hidle.install⟩ fun i => ?_
  show Outside host builds reqs i (applyWithWatchdog host (builds i) (reqs i)) (start.passed i)
    (start.inProgress i)
  rw [hidle.unpassed, hidle.free]
  exact .waiting

end Result

/-! ### Two processes -/

/-- The daemon (`true`) and the command line (`false`), with the binary 1 installed and running, and
no update under way. -/
def sampleProcesses : Processes Nat Bool where
  entry := sampleWorld.entry
  older := sampleWorld.older
  proc i := { pid := if i then 1 else 2, exe := some Layout.system.install }
  inProgress _ := false
  passed _ := false

/-- The device after a schedule of the two, which both ask for the version 2. -/
def sampleApplies (ms : List (Bool × Choice Nat)) : Applies Nat Bool :=
  (startApplies sampleHost (fun _ => sampleBuild) (fun _ => sampleRequest "2")
    sampleProcesses).after sampleHost ms

/-- The command line takes its guard, and looks when the daemon has swapped and has not come to its
end. It is refused. -/
def lookBehindSwap : List (Bool × Choice Nat) :=
  (false, .ok) :: (sampleAnswers.take 18).map (fun c => (true, c)) ++
    [(false, .ok), (false, .ok)] ++ (sampleAnswers.drop 18).map fun c => (true, c)

/-- The command line looks before the daemon, which then updates. It goes on after that, and updates
too. -/
def lookBeforeSwap : List (Bool × Choice Nat) :=
  (sampleAnswers.take 3).map (fun c => (false, c)) ++ sampleAnswers.map (fun c => (true, c)) ++
    (sampleAnswers.drop 3).map fun c => (false, c)

/-- The look behind the swap is safe, so the two calls exclude each other: right behind the look,
when the daemon has not come to its end, and when both have. -/
theorem exclusive_iff_sample :
    Exclusive sampleHost (fun _ => sampleBuild) (fun _ => sampleRequest "2") Layout.system
        sampleProcesses (sampleApplies (lookBehindSwap.take 20)) ∧
      Exclusive sampleHost (fun _ => sampleBuild) (fun _ => sampleRequest "2") Layout.system
        sampleProcesses (sampleApplies lookBehindSwap) := by
  have hexclusive : ∀ ms', ms' <+: lookBehindSwap →
      Exclusive sampleHost (fun _ => sampleBuild) (fun _ => sampleRequest "2") Layout.system
        sampleProcesses (sampleApplies ms') :=
    (exclusive_iff (L := Layout.system) (fun _ => rfl)
      ⟨fun _ => rfl, fun _ _ => rfl, fun _ => rfl, fun _ => rfl⟩ lookBehindSwap).mpr (by decide)
  exact ⟨hexclusive _ (List.take_prefix 20 _), hexclusive _ List.prefix_rfl⟩

/-- When the command line looks first, both calls report `updated`, and the backup is the new
binary: the binary 1 is lost. -/
theorem not_exclusive_sample :
    let s := sampleApplies lookBeforeSwap
    ReportsUpdated s true ∧ ReportsUpdated s false ∧
      (s.world.entry (Layout.system.path .prev)).map Prod.fst = some (.image 2) ∧
      ¬ Exclusive sampleHost (fun _ => sampleBuild) (fun _ => sampleRequest "2") Layout.system
        sampleProcesses s := by
  intro s
  have hprev : (s.world.entry (Layout.system.path .prev)).map Prod.fst = some (.image 2) := rfl
  have hreports : ReportsUpdated s true := ⟨sampleUpdated "2", rfl, rfl⟩
  refine ⟨hreports, ⟨sampleUpdated "2", rfl, rfl⟩, hprev, fun h => ?_⟩
  rcases h.outcome with ⟨-, hnone⟩ | ⟨i, hplace, -⟩
  · exact hnone true hreports
  · have hold := hplace.prev.2
    rw [hprev] at hold
    cases hold

end ThinrAgent
