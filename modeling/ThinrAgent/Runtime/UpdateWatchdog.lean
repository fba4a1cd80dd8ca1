import ThinrAgent.Extensions.Updater
import ThinrAgent.Update.WatchdogCore

/-!
# `ThinrAgent.Runtime.UpdateWatchdog`: the rollback watchdog

`runtime/update_watchdog.{hpp,cpp}`. `checkBoot` is the step before the client exists, and
`doRollback` the restore it shares with the runtime half. `UpdateWatchdog` holds the members
only one thread writes. The members two threads share (`resolved_` under `mutex_` and
`deadline_stop_` under `deadline_mutex_`) belong to the process, and each locked section is
one operation. Log lines are left out.
-/

set_option autoImplicit false

namespace ThinrAgent

open Effects

/-- `client_state`: the two states the watchdog looks at, and the others by name. -/
inductive ClientState where
  | streamsReady
  | authFailed
  | other (name : String)
  deriving DecidableEq, Repr

/-- What the early boot tells its caller: to go on, or to leave the process so that the restored
binary is started. -/
inductive BootOutcome where
  | proceed       -- start the agent normally
  | revertedExit  -- a crash loop was reverted: the caller must exit to restart
  deriving DecidableEq, Repr

section Files
variable {β : Type}

/-- A record in a file's text, or the exception of its conversion. -/
def parseRecord {α : Type} (fromJson : Json → Except JsonError (Option α)) (content : Content β) :
    SysM β (Option α) :=
  match content.parse with
  | none => return none
  | some j =>
    match fromJson j with
    | .ok record => return record
    | .error _ => .throw .typeError

/-- `fs::remove(path, ec)` with the error ignored, so that nothing tells whether the file is
gone. -/
def removeQuiet (path : Path) : SysM β Unit := do
  let _ ← fsRemove path

/-- The marker in the file, if it can be read and has one. -/
def readMarkerFile (path : Path) : SysM β (Option UpdateMarker) := do
  match ← readFile path with
  | none => return none
  | some content => parseRecord UpdateMarker.fromJson content

/-- `updater::last_reverted`: the record in `update.reverted`. A file that is absent, cannot be read
or holds no valid record gives none. -/
def lastReverted (stateDir : Path) : SysM β (Option RevertedInfo) := do
  match ← readFile (revertedFile stateDir) with
  | none => return none
  | some content => parseRecord RevertedInfo.fromJson content

end Files

/-- The record a rollback of `m` leaves in `update.reverted`. -/
def UpdateMarker.reverted (m : UpdateMarker) (reason : String) (at_ : Int64) : RevertedInfo :=
  { version := m.toVersion, restored := m.fromVersion, reason := reason, at_ := at_ }

/-- The marker a rollback of `m` leaves in `update.state`. -/
def UpdateMarker.done (m : UpdateMarker) : UpdateMarker := { m with phase := .rolledBack }

section Boot
variable {β : Type}

/-- `do_rollback`: the backup is moved over the installed binary, and both records are written
behind it. The results of the two writes are ignored, so a rollback may succeed without a record. -/
def doRollback (stateDir : Path) (m : UpdateMarker) (reason : String) : SysM β Bool := do
  let install ← getCurrentBinaryPath
  if m.prevBinary = "" then return false
  if !(← fsExists m.prevBinary) then return false
  if (← fsRename m.prevBinary install).isSome then return false
  fsyncDir (parentPath install)
  let at_ ← time
  let _ ← writeAtomic (revertedFile stateDir) (.json (m.reverted reason at_).toJson) 0o644
  let _ ← writeAtomic (stateFile stateDir) (.json m.done.toJson) 0o644
  return true

/-- What `check_boot` does with its decision. A rollback that fails lets the start proceed, and so
does a marker that cannot be written. -/
def actOnBoot (stateDir : Path) (decision : BootDecision) : SysM β BootOutcome :=
  match decision.action with
  | .cleanStart => return .proceed
  | .clearNoRevert => do
    removeQuiet (stateFile stateDir)
    if decision.marker.prevBinary ≠ "" then removeQuiet decision.marker.prevBinary
    return .proceed
  | .reportRolledBack => return .proceed
  | .arm => do
    let _ ← writeAtomic (stateFile stateDir) (.json decision.marker.toJson) 0o644
    return .proceed
  | .rollback => do
    if ← doRollback stateDir decision.marker "crash_loop" then return .revertedExit
    return .proceed

/-- `update_watchdog::check_boot`: read the marker, decide, and act on the decision. The agent calls
it before anything else can fail. -/
def checkBoot (stateDir : Path) (runningVersion : String) : SysM β BootOutcome := do
  let marker ← readMarkerFile (stateFile stateDir)
  actOnBoot stateDir (decideBoot marker runningVersion)

end Boot

/-- The members of the watchdog that one thread writes: what the marker says, and whether there is a
trial to watch or a report to send. -/
structure UpdateWatchdog where
  stateDir : Path
  runningVersion : String
  marker : UpdateMarker := {}
  armed : Bool := false
  reportPending : Bool := false
  deadlineS : Int32 := 90
  deriving DecidableEq

namespace UpdateWatchdog

variable {β : Type}

/-- The members after the constructor has looked at the marker it read. -/
def ofMarker (stateDir : Path) (runningVersion : String) : Option UpdateMarker → UpdateWatchdog
  | none => { stateDir, runningVersion }
  | some m =>
    if m.phase = .pending ∧ runningVersion = m.toVersion then
      { stateDir, runningVersion, marker := m, armed := true,
        deadlineS := if m.deadlineS > 0 then m.deadlineS else 90 }
    else if m.phase = .rolledBack then
      { stateDir, runningVersion, marker := m, reportPending := true }
    else { stateDir, runningVersion, marker := m }

/-- The watchdog is armed for a pending marker of the running version. -/
theorem armed_ofMarker {stateDir : Path} {runningVersion : String} {marker : Option UpdateMarker} :
    (ofMarker stateDir runningVersion marker).armed = true ↔
      ∃ m, marker = some m ∧ m.phase = .pending ∧ runningVersion = m.toVersion := by
  cases marker with
  | none => simp [ofMarker]
  | some m =>
    simp only [ofMarker, Option.some.injEq, exists_eq_left']
    split
    · simpa using ‹_›
    · split <;> simpa using ‹¬ (m.phase = .pending ∧ _)›

/-- A report is owed for a rolled-back marker. -/
theorem reportPending_ofMarker {stateDir : Path} {runningVersion : String}
    {marker : Option UpdateMarker}
    (h : (ofMarker stateDir runningVersion marker).reportPending = true) :
    ∃ m, marker = some m ∧ m.phase = .rolledBack := by
  cases marker with
  | none => simp [ofMarker] at h
  | some m =>
    refine ⟨m, rfl, ?_⟩
    simp only [ofMarker] at h
    split at h
    · cases h
    · split at h
      · assumption
      · cases h

/-- The watchdog keeps the directory it is given, with or without a marker. -/
@[simp] theorem stateDir_ofMarker (stateDir : Path) (runningVersion : String)
    (marker : Option UpdateMarker) :
    (ofMarker stateDir runningVersion marker).stateDir = stateDir := by
  unfold ofMarker
  repeat' split
  all_goals rfl

/-- The watchdog keeps the marker it is given. -/
@[simp] theorem marker_ofMarker (stateDir : Path) (runningVersion : String) (m : UpdateMarker) :
    (ofMarker stateDir runningVersion (some m)).marker = m := by
  unfold ofMarker
  repeat' split
  all_goals simp_all

/-- The constructor: it reads the marker a second time. Its deadline thread, when armed, runs
`deadlineLoop`. -/
def create (stateDir : Path) (runningVersion : String) : SysM β UpdateWatchdog := do
  return ofMarker stateDir runningVersion (← readMarkerFile (stateFile stateDir))

variable (wd : UpdateWatchdog)

/-- The path of the marker, in the state directory that the watchdog was constructed with. -/
def markerPath : Path := stateFile wd.stateDir

/-- Schedule a report to the server. It is skipped without a connection, and a failure to schedule
it is caught. -/
def report (event fromVersion toVersion reason : String) : SysM β Unit := do
  if !(← isConnected) then return
  let at_ ← time
  let _ ← setProperty "update_report"
    (.obj [("event", .str event), ("from", .str fromVersion), ("to", .str toVersion),
      ("reason", .str reason), ("at", .int at_.toInt)])

/-- `update_watchdog::confirm`: the trial has succeeded, so the marker and the backup are removed,
and the success is reported. -/
def confirm : SysM β Unit := do
  enter .confirm
  setDeadlineStop
  removeQuiet wd.markerPath
  if wd.marker.prevBinary ≠ "" then removeQuiet wd.marker.prevBinary
  report "confirmed" wd.marker.fromVersion wd.marker.toVersion "ok"

/-- `update_watchdog::rollback`: restore the backup and ask the process to end. When nothing was
restored it goes on running. -/
def rollback (reason : String) : SysM β Unit := do
  enter .rollback
  setDeadlineStop
  if ← doRollback wd.stateDir wd.marker reason then raiseSigterm

/-- The report of an earlier rollback: its reason is taken from the record, and the marker is
removed right after the report is scheduled. -/
def reportRolledBack : SysM β Unit := do
  enter .report
  let rv ← lastReverted wd.stateDir
  report "rolled_back" wd.marker.fromVersion wd.marker.toVersion
    ((rv.map RevertedInfo.reason).getD "reverted")
  removeQuiet wd.markerPath

/-- The event that a client state stands for. A failed authentication with the reason `io_error` is
one of the transport. -/
def eventOf (state : ClientState) (reason : String) : RuntimeEvent :=
  match state with
  | .streamsReady => .streamsReady
  | .authFailed => if reason = "io_error" then .authFailedIo else .authFailed
  | .other _ => .stateOther

/-- `on_state`, the observer of the client's states. It returns the members, of which it may clear
`report_pending_`. -/
def onState (state : ClientState) (reason : String) : SysM β UpdateWatchdog := do
  if !wd.armed && !wd.reportPending then return wd
  let ev := eventOf state reason
  if ev = .streamsReady then
    if !(← claimResolution) then return wd
    if wd.reportPending then
      wd.reportRolledBack
      return { wd with reportPending := false }
    else
      if wd.armed then wd.confirm
      return wd
  else
    if !wd.armed then return wd
    if decideRuntime ev = .rollback then
      if !(← claimResolution) then return wd
      wd.rollback "auth_failed"
    return wd

/-- Claim the resolution, and report the rollback where this call got it. -/
def claimReport : SysM β UpdateWatchdog := do
  if !(← claimResolution) then return wd
  wd.reportRolledBack
  return { wd with reportPending := false }

/-- Claim the resolution, and confirm the trial where this call got it. -/
def claimConfirm : SysM β UpdateWatchdog := do
  if !(← claimResolution) then return wd
  wd.confirm
  return wd

/-- Claim the resolution, and roll the update back where this call got it. -/
def claimRollback (reason : String) : SysM β UpdateWatchdog := do
  if !(← claimResolution) then return wd
  wd.rollback reason
  return wd

/-- Only the state `STREAMS_READY` confirms a trial, whatever reason comes with it. -/
theorem eventOf_eq_streamsReady {state : ClientState} {reason : String} :
    eventOf state reason = .streamsReady ↔ state = .streamsReady := by
  cases state with
  | streamsReady => simp [eventOf]
  | authFailed =>
    simp only [eventOf]
    split <;> simp
  | other name => simp [eventOf]

/-- What `on_state` does, one case for each way through it. -/
theorem onState_eq (state : ClientState) (reason : String) :
    (wd.onState state reason : SysM β UpdateWatchdog) =
      if state = .streamsReady then
        if wd.reportPending then wd.claimReport
        else if wd.armed then wd.claimConfirm
        else .ret wd
      else if wd.armed ∧ decideRuntime (eventOf state reason) = .rollback then
        wd.claimRollback "auth_failed"
      else .ret wd := by
  unfold onState
  -- Only the ready streams confirm or report, and only another state may roll back.
  by_cases hready : state = .streamsReady
  · have hev : eventOf state reason = .streamsReady := eventOf_eq_streamsReady.mpr hready
    simp only [hev, if_pos hready, if_true]
    cases wd.reportPending with
    | true =>
      simp only [Bool.not_true, Bool.and_false, Bool.false_eq_true, if_false, if_true]
      rfl
    | false =>
      cases wd.armed with
      | true =>
        simp only [Bool.not_true, Bool.false_and, Bool.false_eq_true, if_false, if_true]
        rfl
      | false => simp
  · have hev : eventOf state reason ≠ .streamsReady := mt eventOf_eq_streamsReady.mp hready
    simp only [hev, hready, if_false]
    cases harmed : wd.armed with
    | true =>
      simp only [Bool.not_true, Bool.false_and, Bool.false_eq_true, if_false, true_and]
      split <;> rfl
    | false => cases wd.reportPending <;> simp

/-- The body of the deadline thread: it waits for the deadline or the stop, claims the resolution,
and rolls back. -/
def deadlineLoop : SysM β Unit := do
  if ← waitDeadline then return
  if !(← claimResolution) then return
  wd.rollback "deadline"

/-- The deadline thread in one equation: it waits, and claims the rollback when it was not told to
stop. -/
theorem deadlineLoop_eq : (wd.deadlineLoop >>= fun _ => .ret wd : SysM β UpdateWatchdog) =
    (waitDeadline >>= fun stop => if stop then .ret wd else wd.claimRollback "deadline") := by
  refine congrArg (Prog.call _) (funext fun stop => ?_)
  cases stop with
  | true => rfl
  | false =>
    refine congrArg (Prog.call _) (funext fun free => ?_)
    cases free <;> rfl

/-- `stop`. There is a deadline thread to join when the watchdog was armed. -/
def stop : SysM β Unit := do
  setDeadlineStop
  if wd.armed then joinDeadline
  unsubscribe

end UpdateWatchdog

end ThinrAgent
