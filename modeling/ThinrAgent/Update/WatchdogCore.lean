import ThinrAgent.Update.UpdateMarker

/-!
# `ThinrAgent.Update.WatchdogCore`: the decisions of the watchdog

The pure functions of `update/watchdog_core.{hpp,cpp}`: what to do at a boot, what to do
with an event while an update is on trial, and whether the poll loop skips a version.
-/

set_option autoImplicit false

namespace ThinrAgent

/-- The starts that a new binary has before its trial counts as a crash loop. -/
def WATCHDOG_MAX_ATTEMPTS : Int32 := 3

/-- The attempts to report a rollback that the comments speak of. -/
def WATCHDOG_MAX_REPORT_ATTEMPTS : Int32 := 5

/-- The time for which a version is not tried again after it has missed its deadline, one day in
seconds. -/
def REVERTED_RETRY_COOLDOWN_S : Int64 := 24 * 60 * 60

/-- What a start does with the marker it finds. -/
inductive BootAction where
  | cleanStart
  | reportRolledBack
  | arm
  | rollback
  | clearNoRevert
  deriving DecidableEq, Repr

/-- An action with the marker it works on and the reason in words. -/
structure BootDecision where
  action : BootAction
  marker : UpdateMarker := {}
  detail : String
  deriving DecidableEq

/-- The marker of a boot of the new binary: one attempt more. -/
def UpdateMarker.counted (m : UpdateMarker) : UpdateMarker :=
  { m with attempts := m.attempts + 1 }

/-- The marker with `k` attempts used, and all else as it was. -/
def UpdateMarker.withAttempts (m : UpdateMarker) (k : Nat) : UpdateMarker :=
  { m with attempts := Int32.ofNat k }

/-- The marker that a start writes has one attempt more than the one it has read. -/
theorem UpdateMarker.counted_withAttempts (m : UpdateMarker) (k : Nat) :
    (m.withAttempts k).counted = m.withAttempts (k + 1) := by
  simp only [counted, withAttempts, Int32.ofNat_add]
  rfl

/-- `decide_boot`: without a trial the agent starts as usual, and a rollback that was not reported
is reported. A trial of another version than the one that runs has not begun. A trial that has used
up its starts is rolled back, and any other one goes on. -/
def decideBoot (marker : Option UpdateMarker) (runningVersion : String) : BootDecision :=
  match marker with
  | none => { action := .cleanStart, detail := "no update marker" }
  | some m =>
    if m.phase = .none then { action := .cleanStart, detail := "no update marker" }
    else if m.phase = .rolledBack then
      { action := .reportRolledBack, marker := m, detail := "previous rollback pending report" }
    else if runningVersion ≠ m.toVersion then
      { action := .clearNoRevert, marker := m,
        detail := "running version is not the swap target; clearing without revert" }
    else if m.counted.attempts > WATCHDOG_MAX_ATTEMPTS then
      { action := .rollback, marker := m.counted, detail := "crash loop: attempts exhausted" }
    else
      { action := .arm, marker := m.counted, detail := "new binary on trial; arming watchdog" }

section
variable {m : UpdateMarker} {runningVersion : String}

/-- A pending marker for another version is cleared. -/
theorem decideBoot_of_ne (hp : m.phase = .pending) (h : runningVersion ≠ m.toVersion) :
    decideBoot (some m) runningVersion
      = { action := .clearNoRevert, marker := m,
          detail := "running version is not the swap target; clearing without revert" } := by
  simp [decideBoot, hp, h]

/-- A pending marker for the running version is armed while the budget lasts. -/
theorem decideBoot_arm (hp : m.phase = .pending) (h : runningVersion = m.toVersion)
    (ha : ¬ m.counted.attempts > WATCHDOG_MAX_ATTEMPTS) :
    decideBoot (some m) runningVersion
      = { action := .arm, marker := m.counted,
          detail := "new binary on trial; arming watchdog" } := by
  simp [decideBoot, hp, h, ha]

/-- A pending marker for the running version is reverted when the budget is used up. -/
theorem decideBoot_rollback (hp : m.phase = .pending) (h : runningVersion = m.toVersion)
    (ha : m.counted.attempts > WATCHDOG_MAX_ATTEMPTS) :
    decideBoot (some m) runningVersion
      = { action := .rollback, marker := m.counted,
          detail := "crash loop: attempts exhausted" } := by
  simp [decideBoot, hp, h, ha]

/-- What a boot does with a pending marker. -/
theorem decideBoot_pending (runningVersion : String) (hp : m.phase = .pending) :
    (decideBoot (some m) runningVersion).action = .clearNoRevert ∧
        (decideBoot (some m) runningVersion).marker = m ∧ runningVersion ≠ m.toVersion ∨
      (decideBoot (some m) runningVersion).action = .arm ∧
        (decideBoot (some m) runningVersion).marker = m.counted ∧ runningVersion = m.toVersion ∨
      (decideBoot (some m) runningVersion).action = .rollback ∧
        (decideBoot (some m) runningVersion).marker = m.counted ∧
        runningVersion = m.toVersion := by
  by_cases h : runningVersion = m.toVersion
  · by_cases ha : m.counted.attempts > WATCHDOG_MAX_ATTEMPTS
    · rw [decideBoot_rollback hp h ha]
      exact .inr (.inr ⟨rfl, rfl, h⟩)
    · rw [decideBoot_arm hp h ha]
      exact .inr (.inl ⟨rfl, rfl, h⟩)
  · rw [decideBoot_of_ne hp h]
    exact .inl ⟨rfl, rfl, h⟩

/-- The watchdog is armed exactly for a pending marker of the running version whose budget
lasts. -/
theorem decideBoot_action_eq_arm : (decideBoot (some m) runningVersion).action = .arm ↔
    m.phase = .pending ∧ runningVersion = m.toVersion ∧
      ¬ m.counted.attempts > WATCHDOG_MAX_ATTEMPTS := by
  unfold decideBoot
  cases hp : m.phase <;> by_cases h : runningVersion = m.toVersion <;>
    by_cases ha : m.counted.attempts > WATCHDOG_MAX_ATTEMPTS <;> simp [hp, h, ha]

/-- A crash loop is reverted for a pending marker of the running version only. -/
theorem decideBoot_action_eq_rollback
    (h : (decideBoot (some m) runningVersion).action = .rollback) :
    m.phase = .pending ∧ runningVersion = m.toVersion ∧
      (decideBoot (some m) runningVersion).marker = m.counted := by
  cases hp : m.phase with
  | none => simp [decideBoot, hp] at h
  | rolledBack => simp [decideBoot, hp] at h
  | pending =>
    rcases decideBoot_pending runningVersion hp with hd | hd | hd
    · rw [hd.1] at h
      cases h
    · rw [hd.1] at h
      cases h
    · exact ⟨rfl, hd.2.2, hd.2.1⟩

/-- The marker that is cleared is the one that was read. -/
theorem decideBoot_marker_of_clear
    (h : (decideBoot (some m) runningVersion).action = .clearNoRevert) :
    (decideBoot (some m) runningVersion).marker = m := by
  cases hp : m.phase with
  | none => simp [decideBoot, hp] at h
  | rolledBack => simp [decideBoot, hp] at h
  | pending =>
    rcases decideBoot_pending runningVersion hp with hd | hd | hd
    · exact hd.2.1
    · rw [hd.1] at h
      cases h
    · rw [hd.1] at h
      cases h

/-- A rolled-back marker owes a report, whatever binary runs. -/
theorem decideBoot_rolledBack (hp : m.phase = .rolledBack) :
    decideBoot (some m) runningVersion
      = { action := .reportRolledBack, marker := m,
          detail := "previous rollback pending report" } := by
  simp [decideBoot, hp]

end

/-- What can happen while a version is on trial. -/
inductive RuntimeEvent where
  | streamsReady
  | authFailed
  | authFailedIo
  | stateOther
  | deadline
  deriving DecidableEq, Repr

/-- What the watchdog does about an event of the client or the deadline. -/
inductive RuntimeAction where
  | ignore
  | confirm
  | rollback
  deriving DecidableEq, Repr

/-- `decide_runtime`: ready streams confirm the version. A refused login and a missed deadline end
the trial, and a login that failed for want of a connection does not. -/
def decideRuntime : RuntimeEvent → RuntimeAction
  | .streamsReady => .confirm
  | .authFailed => .rollback
  | .deadline => .rollback
  | .authFailedIo => .ignore
  | .stateOther => .ignore

/-- `skip_reverted_version`: a version that was rolled back is skipped for good, or for the cooldown
when it has only missed its deadline. -/
def skipRevertedVersion (rev : RevertedInfo) (candidateVersion : String)
    (now cooldownS : Int64) : Bool :=
  if rev.version ≠ candidateVersion then false
  else if rev.reason ≠ "deadline" then true
  else decide (now - rev.at_ < cooldownS)

end ThinrAgent
