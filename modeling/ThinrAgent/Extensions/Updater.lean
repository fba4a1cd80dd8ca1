import ThinrAgent.Config.ConfigPath
import ThinrAgent.Update.Manifest
import ThinrAgent.Utils.AtomicFile

/-!
# `ThinrAgent.Extensions.Updater`: the binary-replacement path

`applyWithWatchdog` and what it calls (`extensions/updater.{hpp,cpp}`). The function is split
at its numbered steps: `fetchBinary` is steps 1 to 5 (download, checksum, permissions,
preflight, activity) and `swapBinary` is steps 6 to 8 (backup, marker, swap). Log lines are
left out. `Build` holds the two constants compiled into a binary.

A channel's manifest has two readers. `fetchManifest` serves the automatic poll, and
`fetchLatestVersion` serves `run`, the entry point of the command line and of the `update`
resource.
-/

set_option autoImplicit false

namespace ThinrAgent

open Effects

/-- `AGENT_VERSION` and `AGENT_BINARY_SUFFIX`, which are compiled into a binary: its version, and
the architecture it is published for. -/
structure Build where
  version : String
  binarySuffix : String
  deriving DecidableEq, Repr

/-- Who has asked for an update: the poll thread, the command line, or the server through the
`update` resource. Only the first one defers to open sessions. -/
inductive UpdateOrigin where
  | autoPoll
  | cli
  | iotmp
  deriving DecidableEq, Repr

/-- What `apply_with_watchdog` is given. The state directory is the caller's, and the callers do not
all pass the same one. -/
structure ApplyRequest where
  version : String
  url : String
  checksum : String
  channel : String
  stateDir : Path
  origin : UpdateOrigin := .iotmp
  rollbackDeadlineS : Int32 := 90
  deriving DecidableEq

/-- How an apply has ended. A deferred update is tried again after ten minutes, one with an error at
the next interval. -/
inductive ApplyStatus where
  | updated
  | deferred
  | error
  deriving DecidableEq, Repr

/-- The end of an apply with the text for its report. The defaults are those of the source, so a
result that sets nothing is an error. -/
structure ApplyResult where
  st : ApplyStatus := .error
  reason : String := ""
  message : String := ""
  deriving DecidableEq, Repr

section Helpers
variable {β : Type}

/-- `download_binary`. A response counts when its status is 200 and some bytes have come. -/
def downloadBinary (url : String) (destPath : Path) : SysM β Bool := do
  match ← httpDownload url destPath with
  | .threw => return false
  | .networkError => return false
  | .response statusCode bytesTransferred =>
    return decide (statusCode = 200) && decide (bytesTransferred ≠ 0)

/-- The text after the first occurrence of `pre`. -/
def afterPrefix (pre : List Char) : List Char → Option (List Char)
  | [] => if pre.isEmpty then some [] else none
  | c :: cs => if pre.isPrefixOf (c :: cs) then some ((c :: cs).drop pre.length)
      else afterPrefix pre cs

/-- The version in the output of a run with `--version`, without trailing blanks. A run that
failed or printed something else has none. -/
def versionOf (r : ExecResult) : String :=
  if r.timedOut || r.exitCode ≠ 0 then ""
  else
    match afterPrefix "thinr-agent version ".toList r.output.toList with
    | none => ""
    | some cs =>
      String.ofList
        (cs.reverse.dropWhile fun c => c = '\n' || c = '\r' || c = ' ').reverse

/-- `verify_binary`: the version that the new binary reports. The text is empty when it does not
run, and the update is refused then. -/
def verifyBinary (binaryPath : Path) : SysM β String := do
  return versionOf (← execVersion binaryPath)

/-- The version the image `b` reports to the preflight. -/
def Host.reportedVersion (host : Host β) (b : β) : String := versionOf (host.runVersion b)

/-- `compute_sha256`. A file that cannot be read has the empty digest. -/
def computeSha256 (host : Host β) (filePath : Path) : SysM β String := do
  match ← readFile filePath with
  | none => return ""
  | some content => return host.sha256 content

/-- `get_current_binary_path`, with the name in the working directory where the system does not tell
the path. -/
def getCurrentBinaryPath : SysM β Path := do
  match ← readlinkExe with
  | some path => return path
  | none => return "./thinr-agent"

/-- Step 2: the checksum, when the manifest carries one. An empty checksum skips the
verification. -/
def checksumMatches (host : Host β) (checksum : String) (tempPath : Path) : SysM β Bool :=
  if checksum = "" then return true
  else do return "sha256:" ++ (← computeSha256 host tempPath) = checksum

/-- The activity gate: only the automatic poll defers on an open interactive session. -/
def sessionsBusy (origin : UpdateOrigin) : SysM β Bool :=
  if origin = .autoPoll then do return decide (0 < (← activeCount)) else return false

end Helpers

/-- The name under which a downloaded binary is staged, next to the installed one. -/
def newPath (installPath : Path) : Path := installPath ++ ".new"
def prevPath (installPath : Path) : Path := installPath ++ ".prev"
def prevTmpPath (installPath : Path) : Path := prevPath installPath ++ ".tmp"

/-- The path of the marker in a state directory. -/
def stateFile (stateDir : Path) : Path := pathJoin stateDir UPDATE_STATE_FILE

/-- The path of the record of the last rollback in a state directory. -/
def revertedFile (stateDir : Path) : Path := pathJoin stateDir UPDATE_REVERTED_FILE

/-- The result of an update that is put off because of an open session. -/
def sessionsActive : ApplyResult :=
  { st := .deferred, reason := "sessions_active",
    message := "deferred: interactive session in progress" }

section Apply
variable {β : Type} (host : Host β) (build : Build) (req : ApplyRequest)

/-- Steps 1 to 5. A result is a refusal, with the downloaded file removed. -/
def fetchBinary (installPath : Path) : SysM β (Option ApplyResult) := do
  if !(← downloadBinary req.url (newPath installPath)) then
    let _ ← fsRemove (newPath installPath)
    return some { reason := "download", message := "failed to download the update binary" }
  if !(← checksumMatches host req.checksum (newPath installPath)) then
    let _ ← fsRemove (newPath installPath)
    return some { reason := "checksum", message := "checksum verification failed" }
  let _ ← fsAddExecPermission (newPath installPath)
  let probed ← verifyBinary (newPath installPath)
  if probed = "" then
    let _ ← fsRemove (newPath installPath)
    return some { reason := "preflight",
                  message := "downloaded binary failed the --version preflight" }
  -- A version other than the requested one is only logged.
  if ← sessionsBusy req.origin then
    let _ ← fsRemove (newPath installPath)
    return some sessionsActive
  return none

/-- The marker that step 7 writes before the swap, for a version that is to be tried. A deadline
that is not positive becomes the default of 90 seconds. -/
def pendingMarker (installPath : Path) (startedAt : Int64) : UpdateMarker :=
  { phase := .pending
    fromVersion := build.version
    toVersion := req.version
    prevBinary := prevPath installPath
    startedAt := startedAt
    attempts := 0
    deadlineS := if req.rollbackDeadlineS > 0 then req.rollbackDeadlineS else 90
    reportAttempts := 0 }

/-- Steps 6 to 8: the installed binary is backed up under a temporary name and moved to `.prev`, the
marker is written, and the new binary is moved over the installed one. -/
def swapBinary (installPath : Path) : SysM β ApplyResult := do
  let _ ← fsRemove (prevTmpPath installPath)
  if (← fsCopyFile installPath (prevTmpPath installPath)).isSome then
    -- The removal overwrites the error code of the copy, which is read after it.
    let ec ← fsRemove (newPath installPath)
    return { reason := if ec = some .enospc then "no_space" else "prev_failed",
             message := "failed to back up the current binary: " ++
               (ec.map host.strerror).getD "Success" }
  if (← fsRename (prevTmpPath installPath) (prevPath installPath)).isSome then
    let _ ← fsRemove (prevTmpPath installPath)
    let ec ← fsRemove (newPath installPath)
    return { reason := "prev_failed",
             message := "failed to stage the backup: " ++ (ec.map host.strerror).getD "Success" }
  let startedAt ← time
  let m := pendingMarker build req installPath startedAt
  if !(← writeAtomic (stateFile req.stateDir) (.json m.toJson) 0o644) then
    let _ ← fsRemove (prevPath installPath)
    let _ ← fsRemove (newPath installPath)
    return { reason := "marker_failed", message := "failed to write the update marker" }
  if (← fsRename (newPath installPath) installPath).isSome then
    let _ ← fsRemove (stateFile req.stateDir)
    let _ ← fsRemove (prevPath installPath)
    let ec ← fsRemove (newPath installPath)
    return { reason := "swap_failed",
             message := "failed to swap the binary: " ++ (ec.map host.strerror).getD "Success" }
  fsyncDir (parentPath installPath)
  return { st := .updated, reason := "ok",
           message := "update applied: " ++ build.version ++ " -> " ++ req.version }

/-- The body that runs while the process holds `in_progress`: a marker that is there refuses the
update, an open session may defer it, and then the binary is fetched, checked and swapped. -/
def applyGuarded : SysM β ApplyResult := do
  if ← fsExists (stateFile req.stateDir) then
    return { st := .error, reason := "restart_pending",
             message := "a previous update is pending a restart" }
  if ← sessionsBusy req.origin then
    return sessionsActive
  let installPath ← getCurrentBinaryPath
  match ← fetchBinary host req installPath with
  | some r => return r
  | none => swapBinary host build req installPath

/-- `apply_with_watchdog`: an update without a version is refused, and so is one while another is in
progress. The flag is released whichever way the steps end, by an exception too. -/
def applyWithWatchdog : SysM β ApplyResult := do
  if req.version = "" then
    return { st := .error, reason := "error", message := "empty target version" }
  if !(← acquireInProgress) then
    return { st := .error, reason := "busy", message := "another update is already in progress" }
  (applyGuarded host build req).ensure releaseInProgress

end Apply

/-! ### The channel -/

/-- The server of the manifests and the binaries. -/
def CDN_BASE_URL : String := "https://get.thinremote.io"

/-- Where the manifest of a channel is published. -/
def manifestUrl (channel : String) : String := CDN_BASE_URL ++ "/" ++ channel ++ ".json"

/-- Where the binary of a channel is, for the architecture the agent was compiled for. -/
def binaryUrl (build : Build) (channel : String) : String :=
  CDN_BASE_URL ++ "/binaries/" ++ channel ++ "/thinr-agent." ++ build.binarySuffix

/-- `updater::version_info`: what `run` takes from the manifest of the channel. The checksum is
empty when the manifest has none for the architecture. -/
structure VersionInfo where
  version : String
  checksum : String := ""
  deriving DecidableEq

/-- The checksum that `fetch_latest_version` finds for an architecture: empty where the manifest has
none, and a type error where it is no string. -/
def latestChecksum (binarySuffix : String) (j : Json) : Except Exc String :=
  match (j.find "checksums").bind fun checksums => checksums.find binarySuffix with
  | none => .ok ""
  | some (.str checksum) => .ok checksum
  | some _ => .error .typeError

/-- What `fetch_latest_version` takes from a manifest's text. Unlike `manifest::parse` it throws for
every text without a version. -/
def versionInfo (binarySuffix : String) (j : Json) : Except Exc VersionInfo :=
  if j.isObject then
    match j.find "version" with
    | none => .error .outOfRange
    | some (.str version) => do
      let checksum ← latestChecksum binarySuffix j
      return { version, checksum }
    | some _ => .error .typeError
  else .error .typeError

/-- What `run` is asked for: to look for an update, or to apply it. -/
inductive Action where
  | check
  | apply
  deriving DecidableEq, Repr

/-- `updater::result`: the answer of `run`, which the command line prints and the resource
returns. -/
structure RunResult where
  status : String := ""
  current : String
  latest : String := ""
  arch : String
  message : String := ""
  deriving DecidableEq

/-- The outcome of an apply, as `run` reports it. -/
def RunResult.ofApply (r : RunResult) (ar : ApplyResult) : RunResult :=
  match ar.st with
  | .updated => { r with status := "updated", message := "Update applied. Restarting..." }
  | .deferred =>
    { r with status := "deferred", message := if ar.message = "" then ar.reason else ar.message }
  | .error =>
    { r with status := "error", message := if ar.message = "" then ar.reason else ar.message }

/-- `e.what()`, with the texts of the exceptions the libraries throw. -/
def Exc.what (library : Exc → String) : Exc → String
  | .runtimeError text => text
  | .invalidArgument text => text
  | e => library e

section Channel
variable {β : Type}

/-- `updater::fetch_manifest`: the manifest of the channel for the automatic poll. A request that
fails gives none, and a text of any kind gives some manifest, valid or not. -/
def fetchManifest (cast : Json.FloatCast) (channel : String) : SysM β (Option Manifest) := do
  match ← httpGet (manifestUrl channel) with
  | .error _ => return none
  | .response status body =>
    if status ≠ 200 then return none else return some (Manifest.parse cast body)

/-- `updater::fetch_latest_version`: the version and the checksum of the channel for `run`. A
failure of the request or of the text is an exception. -/
def fetchLatestVersion (build : Build) (channel : String) : SysM β VersionInfo := do
  match ← httpGet (manifestUrl channel) with
  | .error what => .throw (.runtimeError what)
  | .response status body =>
    if status ≠ 200 then .throw (.runtimeError ("HTTP " ++ toString status))
    else
      match body with
      | none => .throw .parseError
      | some j =>
        match versionInfo build.binarySuffix j with
        | .ok info => return info
        | .error e => .throw e

/-- The request of `run` for the version it found. -/
def runRequest (build : Build) (channel : String) (origin : UpdateOrigin) (stateDir : Path)
    (latest : VersionInfo) : ApplyRequest :=
  { version := latest.version
    channel := channel
    url := binaryUrl build channel
    checksum := latest.checksum
    stateDir := stateDir
    origin := origin
    rollbackDeadlineS := 90 }

/-- `run` from the version it found on: compare, and apply when asked to. -/
def runLatest (host : Host β) (build : Build) (user : User) (act : Action) (channel : String)
    (origin : UpdateOrigin) (latest : VersionInfo) : SysM β RunResult := do
  let r : RunResult := { current := build.version, arch := build.binarySuffix }
  if latest.version = "" then
    return { r with status := "error", message := "Empty version response from CDN" }
  let r := { r with latest := latest.version }
  if r.current = latest.version then return { r with status := "up_to_date" }
  if act ≠ .apply then return { r with status := "update_available" }
  match defaultStateDir user with
  | .error e => .throw e
  | .ok stateDir =>
    return r.ofApply (← applyWithWatchdog host build
      (runRequest build channel origin stateDir latest))

/-- `updater::run`: look up the latest version, and apply it when the action is to apply. It never
throws for the channel, and puts the failure into its result. -/
def run (host : Host β) (build : Build) (user : User) (library : Exc → String) (act : Action)
    (channel : String) (origin : UpdateOrigin) : SysM β RunResult := do
  let latest ← ((do return Except.ok (← fetchLatestVersion build channel)) :
    SysM β (Except Exc VersionInfo)).tryCatch fun e => return .error e
  match latest with
  | .error e =>
    return { current := build.version, arch := build.binarySuffix, status := "error",
             message := "Failed to check for updates: " ++ e.what library }
  | .ok latest => runLatest host build user act channel origin latest

/-- `updater::restart_into_new_binary`: the process asks itself to end, and the service manager
starts the new binary. -/
def restartIntoNewBinary : SysM β Unit := raiseSigterm

end Channel

end ThinrAgent
