import ThinrAgent.Proofs.Runtime

/-!
# `ThinrAgent.Proofs.Device`: a device over all its processes

A device is its files and at most one process of the agent. A process starts from the installed
binary, does one activity after the other (an update, a client state, the deadline) operation by
operation, and may die between any two of them. Any operation may fail. `Device.step` is one
move, and `Device.run` a sequence of them.

Next to the world, a device tracks which binary counts as known good: the binary that a
confirmation confirms, from the removal of the marker on. `Device.run_inv` is the invariant rule.
It asks for one fact about the start-up and one about each activity.
-/

set_option autoImplicit false

namespace ThinrAgent

open Effects

/-! ### The known-good binary -/

namespace SysOp

variable {β : Type}

/-- The operation removes the file at `p`, whether it is there or not. -/
def removes (p : Path) : SysOp β → Bool
  | remove q => decide (q = p)
  | _ => false

/-- The operation enters `confirm`, the step at which a trial is declared a success. -/
def entersConfirm : SysOp β → Bool
  | enter .confirm => true
  | _ => false

end SysOp

/-- A world with what is known of its binaries. `confirming` says that the activity has entered
`confirm`, and `lost` that a confirmation failed to remove the marker. -/
structure Tracked (β : Type) where
  world : World β
  good : β
  confirming : Bool := false
  lost : Bool := false

section Machine

variable {β : Type} (host : Host β) (L : Layout)

/-- The host as seen from a process that runs the image `img`. -/
def trackedMachine (img : β) : Machine (sysInterface β) (Tracked β) (Choice β) where
  exec t o c := ((exec host t.world o c).1, {
    world := (exec host t.world o c).2
    good := if t.confirming && o.removes (L.path .state) then img else t.good
    confirming := t.confirming || o.entersConfirm
    lost := t.lost || (t.confirming && o.removes (L.path .state) && c.error.isSome) })

/-- An operation that changes only the world, when `confirming` is as given. -/
def Untracked (confirming : Bool) (o : SysOp β) : Prop :=
  o.entersConfirm = false ∧ (confirming = true → o.removes (L.path .state) = false)

variable {host L} {img : β} {A : SysOp β → Choice β → Prop} {α : Type}

/-- An operation outside a confirmation leaves the known-good binary as it is. -/
theorem exec_of_untracked {t : Tracked β} {o : SysOp β} {c : Choice β}
    (h : Untracked L t.confirming o) : (trackedMachine host L img).exec t o c =
      ((exec host t.world o c).1, { t with world := (exec host t.world o c).2 }) := by
  obtain ⟨henter, hremove⟩ := h
  cases hc : t.confirming with
  | false => simp [trackedMachine, hc, henter]
  | true => simp [trackedMachine, hc, henter, hremove hc]

/-- A fact about the world, for a program whose operations change only the world. -/
theorem cwp_tracked {J : World β → Prop} {p : SysM β α} {Q : Except Exc α → World β → Prop}
    {t : Tracked β} (hops : AllOps (Untracked L t.confirming) p)
    (h : cwp (hostMachine host) A J p Q t.world) :
    cwp (trackedMachine host L img) A (fun t' => ∃ w, t' = { t with world := w } ∧ J w) p
      (fun r t' => ∃ w, t' = { t with world := w } ∧ Q r w) t := by
  induction p generalizing t with
  | ret a => exact ⟨⟨_, rfl, h.1⟩, _, rfl, h.2⟩
  | throw e => exact ⟨⟨_, rfl, h.1⟩, _, rfl, h.2⟩
  | call o k ih =>
    refine ⟨⟨_, rfl, h.1⟩, fun c hc => ?_⟩
    rw [exec_of_untracked hops.1]
    exact ih _ (t := { t with world := (exec host t.world o c).2 }) (hops.2 _) (h.2 c hc)

/-- A guard on the world holds of the tracked run too, where the tracked binary stays as it was. -/
theorem guards_tracked {G : World β → SysOp β → Prop} {p : SysM β α} {t : Tracked β}
    (hops : AllOps (Untracked L t.confirming) p) (h : guards (hostMachine host) A G p t.world) :
    guards (trackedMachine host L img) A (fun t' o => t'.good = t.good ∧ G t'.world o) p t := by
  induction p generalizing t with
  | ret a => trivial
  | throw e => trivial
  | call o k ih =>
    refine ⟨⟨rfl, h.1⟩, fun c hc => ?_⟩
    rw [exec_of_untracked hops.1]
    exact ih _ (t := { t with world := (exec host t.world o c).2 }) (hops.2 _) (h.2 c hc)

end Machine

/-! ### The device -/

/-- The steps of the agent's start that work on the update files. -/
def startUp {β : Type} (stateDir : Path) (runningVersion : String) : SysM β UpdateWatchdog := do
  match ← checkBoot stateDir runningVersion with
  | .revertedExit => .throw .revertedRestartRequired
  | .proceed => UpdateWatchdog.create stateDir runningVersion

/-- What a process does after its start: an update, a state of the client, or the thread of the
deadline. -/
inductive Activity where
  | apply (build : Build) (req : ApplyRequest)
  | event (state : ClientState) (reason : String)
  | deadline

section Device

variable {β : Type} (host : Host β) (L : Layout)

/-- The program of an activity. The callers of an update and of `on_state` go on after an
exception, and the deadline thread does not. -/
def Activity.prog (wd : UpdateWatchdog) : Activity → SysM β UpdateWatchdog
  | apply build req =>
    (applyWithWatchdog host build { req with stateDir := L.stateDir } >>= fun _ =>
      .ret wd).tryCatch fun _ => .ret wd
  | event state reason => (wd.onState state reason).tryCatch fun _ => .ret wd
  | deadline => do
    if wd.armed then wd.deadlineLoop
    return wd

/-- An update is to another version than the one of the binary `img` it replaces. -/
def Activity.Fits (img : β) : Activity → Prop
  | apply _ req => req.version ≠ host.reportedVersion img
  | _ => True

/-- The answers in an activity: a delivered binary reports the version that is written for it.
Apart from this, every answer. -/
def Activity.Allows : Activity → SysOp β → Choice β → Prop
  | apply _ req, .httpDownload _ _, c =>
    ∀ n, c.left = some (.image n) → host.reportedVersion n = req.version
  | _, _, _ => True

instance (img : β) : (a : Activity) → Decidable (a.Fits host img)
  | .apply _ req => inferInstanceAs (Decidable (req.version ≠ host.reportedVersion img))
  | .event _ _ => isTrue trivial
  | .deadline => isTrue trivial

instance (req : ApplyRequest) : (left : Option (Content β)) →
    Decidable (∀ n, left = some (.image n) → host.reportedVersion n = req.version)
  | some (.image n) => decidable_of_iff (host.reportedVersion n = req.version)
      ⟨fun h _ hn => by cases hn; exact h, fun h => h n rfl⟩
  | some (.json _) => isTrue fun _ hn => nomatch hn
  | some (.raw _) => isTrue fun _ hn => nomatch hn
  | none => isTrue fun _ hn => nomatch hn

instance (a : Activity) (o : SysOp β) (c : Choice β) : Decidable (a.Allows host o c) := by
  unfold Activity.Allows
  split
  · infer_instance
  · infer_instance

/-- The process of a device: none, one that runs an activity (or its start-up), or one between
two activities. -/
inductive Run (β : Type) where
  | down
  | busy (img : β) (a : Option Activity) (p : SysM β UpdateWatchdog)
  | idle (img : β) (wd : UpdateWatchdog)

/-- A device with its known-good binary and the process that runs on it. -/
structure Device (β : Type) where
  tracked : Tracked β
  run : Run β := .down

/-- A move of the device: a start, an activity that begins, an operation with its answer, or the
death of the process. -/
inductive Move (β : Type) where
  | boot (pid : Nat)
  | begin (a : Activity)
  | op (c : Choice β)
  | die

/-- A process whose program has ended goes on, or dies of the exception. -/
def Run.settle (img : β) (a : Option Activity) : SysM β UpdateWatchdog → Run β
  | .ret wd => .idle img wd
  | .throw _ => .down
  | .call o k => .busy img a (.call o k)

namespace Device

/-- A new device with the binary `good` installed in `w`. -/
def initial (w : World β) (good : β) : Device β := { tracked := { world := w, good := good } }

/-- One move of the device. A move that does not fit what the device is doing (a boot while a
process runs, an answer for a process that waits) changes nothing. -/
def step (d : Device β) : Move β → Device β
  | .boot pid =>
    match d.run, d.tracked.world.image (L.path .install) with
    | .down, some img =>
      { tracked := { d.tracked with
          world := { d.tracked.world with
            proc := { pid := pid, exe := some (L.path .install) }, inProgress := false }
          confirming := false }
        run := .busy img none (startUp L.stateDir (host.reportedVersion img)) }
    | _, _ => d
  | .begin a =>
    match d.run with
    | .idle img wd =>
      { tracked := { d.tracked with confirming := false }
        run := .busy img (some a) (a.prog host L wd) }
    | _ => d
  | .op c =>
    match d.run with
    | .busy img a p =>
      { tracked := ((trackedMachine host L img).step (p, d.tracked) c).2
        run := Run.settle img a ((trackedMachine host L img).step (p, d.tracked) c).1 }
    | _ => d
  | .die => { d with run := .down }

/-- The device after a list of moves, one after another from the left. -/
def runMoves (d : Device β) (ms : List (Move β)) : Device β := ms.foldl (step host L) d

/-- The moves that the environment may make in `d`: the answers that an activity admits, and no
update that does not fit the running binary. -/
def Allows (d : Device β) : Move β → Prop
  | .begin a => ∀ img wd, d.run = .idle img wd → a.Fits host img
  | .op c => ∀ img a o k, d.run = .busy img (some a) (.call o k) → a.Allows host o c
  | _ => True

/-- Every move of the run is allowed in the state of the device in which it is made. -/
def AllowsRun : Device β → List (Move β) → Prop
  | _, [] => True
  | d, m :: ms => d.Allows host m ∧ AllowsRun (d.step host L m) ms

instance (d : Device β) : (m : Move β) → Decidable (d.Allows host m)
  | .boot _ => isTrue trivial
  | .die => isTrue trivial
  | .begin a =>
    match hd : d.run with
    | .idle img _ => decidable_of_iff (a.Fits host img)
        ⟨fun h _ _ hrun => by cases hd.symm.trans hrun; exact h, fun h => h img _ hd⟩
    | .down => isTrue fun _ _ hrun => nomatch hd.symm.trans hrun
    | .busy _ _ _ => isTrue fun _ _ hrun => nomatch hd.symm.trans hrun
  | .op c =>
    match hd : d.run with
    | .busy img (some a) (.call o k) => decidable_of_iff (a.Allows host o c)
        ⟨fun h _ _ _ _ hrun => by cases hd.symm.trans hrun; exact h, fun h => h img a o k hd⟩
    | .busy _ (some _) (.ret _) => isTrue fun _ _ _ _ hrun => nomatch hd.symm.trans hrun
    | .busy _ (some _) (.throw _) => isTrue fun _ _ _ _ hrun => nomatch hd.symm.trans hrun
    | .busy _ none _ => isTrue fun _ _ _ _ hrun => nomatch hd.symm.trans hrun
    | .down => isTrue fun _ _ _ _ hrun => nomatch hd.symm.trans hrun
    | .idle _ _ => isTrue fun _ _ _ _ hrun => nomatch hd.symm.trans hrun

/-- Whether a run is allowed is decided move by move. -/
instance decidableAllowsRun : (d : Device β) → (ms : List (Move β)) →
    Decidable (d.AllowsRun host L ms)
  | _, [] => isTrue trivial
  | d, m :: ms =>
    have := decidableAllowsRun (d.step host L m) ms
    inferInstanceAs (Decidable (d.Allows host m ∧ AllowsRun host L (d.step host L m) ms))

end Device

/-- The answers that the environment may give in an activity, or any answer in the start-up. -/
def Activity.Answers (a : Option Activity) : SysOp β → Choice β → Prop := fun o c =>
  ∀ act, a = some act → act.Allows host o c

/-- A program of the process that runs `img`: `Disk` holds on the way, `G` at every operation,
and `Idle` when the process goes on. -/
def Proceeds (Disk : Tracked β → Prop) (Idle : β → UpdateWatchdog → Tracked β → Prop)
    (G : Tracked β → SysOp β → Prop) (img : β) (a : Option Activity)
    (p : SysM β UpdateWatchdog) (t : Tracked β) : Prop :=
  cwp (trackedMachine host L img) (Activity.Answers host a) Disk p
      (fun r t' => ∀ wd, r = .ok wd → Idle img wd t') t ∧
    guards (trackedMachine host L img) (Activity.Answers host a) G p t

/-- The invariant of a device, from three assertions: one on the disk while it is down, one while
the process is idle, and the proof obligations of the program while one runs. -/
def Device.Inv (Disk : Tracked β → Prop) (Idle : β → UpdateWatchdog → Tracked β → Prop)
    (G : Tracked β → SysOp β → Prop) (d : Device β) : Prop :=
  match d.run with
  | .down => Disk d.tracked
  | .idle img wd => Idle img wd d.tracked
  | .busy img a p => Proceeds host L Disk Idle G img a p d.tracked

variable {host L} {Disk : Tracked β → Prop} {Idle : β → UpdateWatchdog → Tracked β → Prop}
  {G : Tracked β → SysOp β → Prop}

/-- In every state of the invariant the files satisfy what it says of the disk, whether a process
runs or not. -/
theorem Device.Inv.disk (hidle : ∀ img wd t, Idle img wd t → Disk t) {d : Device β}
    (h : d.Inv host L Disk Idle G) : Disk d.tracked := by
  obtain ⟨t, run⟩ := d
  cases run with
  | down => exact h
  | busy img a p => exact cwp_inv h.1
  | idle img wd => exact hidle img wd t h

/-- One allowed move keeps the invariant, by the cases of the move. -/
theorem Device.Inv.step (hidle : ∀ img wd t, Idle img wd t → Disk t)
    (hboot : ∀ t img pid, Disk t → t.world.image (L.path .install) = some img →
      Proceeds host L Disk Idle G img none (startUp L.stateDir (host.reportedVersion img))
        { t with
          world := { t.world with
            proc := { pid := pid, exe := some (L.path .install) }, inProgress := false }
          confirming := false })
    (hbegin : ∀ t img wd a, Idle img wd t → a.Fits host img →
      Proceeds host L Disk Idle G img (some a) (a.prog host L wd) { t with confirming := false })
    {d : Device β} {m : Move β} (h : d.Inv host L Disk Idle G) (hm : d.Allows host m) :
    (d.step host L m).Inv host L Disk Idle G := by
  have hdisk := h.disk hidle
  obtain ⟨t, run⟩ := d
  cases m with
  | boot pid =>
    cases run with
    | down =>
      cases himg : t.world.image (L.path .install) with
      | none =>
        -- Nothing at the install path: the device stays down.
        have hstep : Device.step host L { tracked := t, run := .down } (.boot pid)
            = { tracked := t, run := .down } := by simp [Device.step, himg]
        rw [hstep]
        exact h
      | some img =>
        simp only [Device.step, himg]
        exact hboot t img pid hdisk himg
    | busy img a p => exact h
    | idle img wd => exact h
  | begin a =>
    cases run with
    | down => exact h
    | busy img a' p => exact h
    | idle img wd => exact hbegin t img wd a h (hm img wd rfl)
  | op c =>
    -- One system call of the activity under way; after its last one the agent is idle again.
    cases run with
    | down => exact h
    | idle img wd => exact h
    | busy img a p =>
      obtain ⟨hcwp, hguards⟩ := h
      cases p with
      | ret wd => exact hcwp.2 wd rfl
      | throw e => exact hcwp.1
      | call o k =>
        have hc : Activity.Answers host a o c := by
          rintro act rfl
          exact hm img act o k rfl
        have hcwp' := hcwp.2 c hc
        have hguards' := hguards.2 c hc
        show Device.Inv host L Disk Idle G
          { tracked := ((trackedMachine host L img).exec t o c).2
            run := Run.settle img a (k ((trackedMachine host L img).exec t o c).1) }
        generalize (trackedMachine host L img).exec t o c = s at hcwp' hguards' ⊢
        cases hk : k s.1 with
        | ret wd =>
          rw [hk] at hcwp'
          exact hcwp'.2 wd rfl
        | throw e =>
          rw [hk] at hcwp'
          exact hcwp'.1
        | call o' k' =>
          rw [hk] at hcwp' hguards'
          exact ⟨hcwp', hguards'⟩
  -- Power may go at every moment: only what is on disk is kept.
  | die => exact hdisk

/-- Every allowed run keeps the invariant, by induction on the moves. -/
theorem Device.run_inv (hidle : ∀ img wd t, Idle img wd t → Disk t)
    (hboot : ∀ t img pid, Disk t → t.world.image (L.path .install) = some img →
      Proceeds host L Disk Idle G img none (startUp L.stateDir (host.reportedVersion img))
        { t with
          world := { t.world with
            proc := { pid := pid, exe := some (L.path .install) }, inProgress := false }
          confirming := false })
    (hbegin : ∀ t img wd a, Idle img wd t → a.Fits host img →
      Proceeds host L Disk Idle G img (some a) (a.prog host L wd) { t with confirming := false })
    {d : Device β} {ms : List (Move β)} (h : d.Inv host L Disk Idle G)
    (hms : d.AllowsRun host L ms) : (d.runMoves host L ms).Inv host L Disk Idle G := by
  induction ms generalizing d with
  | nil => exact h
  | cons m ms ih => exact ih (h.step hidle hboot hbegin hms.1) hms.2

end Device

end ThinrAgent
