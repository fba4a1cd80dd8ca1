import ThinrAgent.Extensions.Updater

/-!
# `ThinrAgent.Extensions.MarkerDump`: an apply whose marker may not print

`applyWithWatchdog` writes the marker as the JSON value it is. The source prints the value
first (`update_marker::dump`), and the printer of `nlohmann::json` throws a type error for a
text that is not UTF-8. The path of an installation may be any bytes, so the printing can
fail. `applyWithWatchdogDumping` is the function with this step in it. `utf8` says which
texts the printer accepts.

Where every text prints, the two functions are the same (`applyWithWatchdogDumping_eq`).
-/

set_option autoImplicit false

namespace ThinrAgent

open Effects

/-- The printer accepts the texts of the marker: the two versions and the path of the backup. -/
def UpdateMarker.prints (utf8 : String → Bool) (m : UpdateMarker) : Bool :=
  utf8 m.fromVersion && utf8 m.toVersion && utf8 m.prevBinary

section Apply
variable {β : Type} (utf8 : String → Bool) (host : Host β) (build : Build) (req : ApplyRequest)

/-- `m.dump()`, the text that step 7 writes. It throws where a text of the marker is not UTF-8. -/
def dumpMarker (m : UpdateMarker) : SysM β (Content β) :=
  if m.prints utf8 then return .json m.toJson else .throw .typeError

/-- Steps 6 to 8, with the printing of the marker behind the read of the clock. The backup is in
place then, and no handler stands around the printing. -/
def swapBinaryDumping (installPath : Path) : SysM β ApplyResult := do
  let _ ← fsRemove (prevTmpPath installPath)
  if (← fsCopyFile installPath (prevTmpPath installPath)).isSome then
    -- The removal overwrites the error code of the copy, which is read after it.
    let ec ← fsRemove (newPath installPath)
    return { reason := if ec = some .enospc then "no_space" else "prev_failed",
             message := "failed to back up the current binary: " ++
               (ec.map host.strerror).getD "Success" }
  if (← fsRename (prevTmpPath installPath) (prevPath installPath)).isSome then
    let _ ← fsRemove (prevTmpPath installPath)
    let ec ← fsRemove (newPath installPath)
    return { reason := "prev_failed",
             message := "failed to stage the backup: " ++ (ec.map host.strerror).getD "Success" }
  let startedAt ← time
  let text ← dumpMarker utf8 (pendingMarker build req installPath startedAt)
  if !(← writeAtomic (stateFile req.stateDir) text 0o644) then
    let _ ← fsRemove (prevPath installPath)
    let _ ← fsRemove (newPath installPath)
    return { reason := "marker_failed", message := "failed to write the update marker" }
  if (← fsRename (newPath installPath) installPath).isSome then
    let _ ← fsRemove (stateFile req.stateDir)
    let _ ← fsRemove (prevPath installPath)
    let ec ← fsRemove (newPath installPath)
    return { reason := "swap_failed",
             message := "failed to swap the binary: " ++ (ec.map host.strerror).getD "Success" }
  fsyncDir (parentPath installPath)
  return { st := .updated, reason := "ok",
           message := "update applied: " ++ build.version ++ " -> " ++ req.version }

/-- The body that runs while the process holds `in_progress`, as in `applyGuarded`. -/
def applyGuardedDumping : SysM β ApplyResult := do
  if ← fsExists (stateFile req.stateDir) then
    return { st := .error, reason := "restart_pending",
             message := "a previous update is pending a restart" }
  if ← sessionsBusy req.origin then
    return sessionsActive
  let installPath ← getCurrentBinaryPath
  match ← fetchBinary host req installPath with
  | some r => return r
  | none => swapBinaryDumping utf8 host build req installPath

/-- `apply_with_watchdog` with the printing of the marker. The guard of the process is released
after an exception of the printer as well. -/
def applyWithWatchdogDumping : SysM β ApplyResult := do
  if req.version = "" then
    return { st := .error, reason := "error", message := "empty target version" }
  if !(← acquireInProgress) then
    return { st := .error, reason := "busy", message := "another update is already in progress" }
  (applyGuardedDumping utf8 host build req).ensure releaseInProgress

/-- Where every text prints, the printing is no step of its own, and the function is
`applyWithWatchdog`. -/
theorem applyWithWatchdogDumping_eq (h : ∀ text, utf8 text = true) :
    applyWithWatchdogDumping utf8 host build req = applyWithWatchdog host build req := by
  have hdump (m : UpdateMarker) : dumpMarker (β := β) utf8 m = .ret (.json m.toJson) := by
    simp [dumpMarker, UpdateMarker.prints, h]
  have hswap : swapBinaryDumping utf8 host build req = swapBinary host build req := by
    funext install
    unfold swapBinaryDumping swapBinary
    simp only [hdump, Prog.ret_bind]
  unfold applyWithWatchdogDumping applyWithWatchdog applyGuardedDumping applyGuarded
  exact hswap ▸ rfl

end Apply

end ThinrAgent
