import ThinrAgent.Config.ConfigManager
import ThinrAgent.Runtime.UpdateWatchdog
import ThinrAgent.Update.UpdateSettings

/-!
# `ThinrAgent.Runtime.UpdatePoller`: the automatic update poll

`runtime/update_poller.{hpp,cpp}`. A cycle reads the local settings first (`readLocal`). Then it
reads the two members that other threads write, the override and the connection state, once
each: the rest of the cycle (`runLocal`) is a function of the poller at that moment. `candidate`
is the rest up to the request, and `applyCandidate` what follows it. The poll thread has no
handler for an exception. Log lines and the waiting between two cycles are left out.
-/

set_option autoImplicit false

namespace ThinrAgent

open Effects

/-- The members of `update_poller`, among them the connection and the remote policy, which other
threads set. -/
structure UpdatePoller where
  deviceId : String
  configPath : Path
  stateDir : Path
  runningVersion : String
  connected : Bool := false
  remotePolicy : Int32 := -1  -- -1 none, 0 auto, 1 managed
  lastIntervalH : Int32 := CHECK_INTERVAL_DEFAULT_H
  deriving DecidableEq

/-- How a cycle ends, which decides when the next one begins. -/
inductive CycleResult where
  | normal
  | deferred
  | restarting  -- a SIGTERM is on its way
  deriving DecidableEq, Repr

namespace UpdatePoller

variable (p : UpdatePoller)

/-- `set_remote_policy`: the override as the member keeps it, with a number for none. -/
def setRemotePolicy (policy : Option UpdatePolicy) : UpdatePoller :=
  { p with remotePolicy :=
      match policy with
      | some .managed => 1
      | some .automatic => 0
      | none => -1 }

/-- The override that the member `remote_policy_` stands for. Every value but the two of the
policies stands for none. -/
def remoteOverride : Option UpdatePolicy :=
  if p.remotePolicy = 0 then some .automatic
  else if p.remotePolicy = 1 then some .managed
  else none

/-- The encoding of the override in a number loses nothing: what was set is what is read. -/
@[simp] theorem remoteOverride_setRemotePolicy (policy : Option UpdatePolicy) :
    (p.setRemotePolicy policy).remoteOverride = policy := by
  cases policy with
  | none => rfl
  | some policy => cases policy <;> rfl

/-- `on_state`: the poller remembers only whether the client's streams are ready. Any other state
counts as not connected. -/
def onState (state : ClientState) : UpdatePoller :=
  { p with connected := decide (state = .streamsReady) }

/-- A state of the client does not touch the override. -/
@[simp] theorem remoteOverride_onState (state : ClientState) :
    (p.onState state).remoteOverride = p.remoteOverride := rfl

section Cycle
variable {β : Type}

/-- The local settings, from the configuration file of the poller. A path that cannot be expanded
throws. -/
def readLocal (user : User) (configPath : Path) : SysM β UpdateSettings :=
  match configPathOf user configPath with
  | .error e => .throw e
  | .ok path => do return UpdateSettings.fromJson (← readUpdateSection path)

/-- The request for the version of a manifest. -/
def request (build : Build) (settings : UpdateSettings) (man : Manifest) : ApplyRequest :=
  { version := man.version
    channel := settings.channel
    url := binaryUrl build settings.channel
    checksum := (man.checksumFor build.binarySuffix).getD ""
    stateDir := p.stateDir
    origin := .autoPoll
    rollbackDeadlineS := settings.rollbackDeadlineS }

/-- The version is not skipped because of an earlier rollback. The clock is read when there is a
record only. -/
def notReverted (man : Manifest) : SysM β Bool := do
  match ← lastReverted p.stateDir with
  | none => return true
  | some rev =>
    return !skipRevertedVersion rev man.version (← time) REVERTED_RETRY_COOLDOWN_S

/-- The manifest whose version the cycle asks for, if any: the policy, the connection, the version,
the record of a rollback and the rollout are the gates, in this order. -/
def candidate (cast : Json.FloatCast) (f : Fractions) (settings : UpdateSettings) :
    SysM β (Option Manifest) := do
  if effectivePolicy settings p.remoteOverride = .managed then return none
  if !p.connected then return none
  match ← fetchManifest cast settings.channel with
  | none => return none
  | some man =>
    if !man.valid then return none
    if man.version = p.runningVersion then return none
    if !(← p.notReverted man) then return none
    if !isEligible (evaluateEligibility f man p.deviceId (← time)) then return none
    return some man

/-- Apply a candidate, and what the cycle reports then: a restart after an update, a deferral, or
the normal end for an error. -/
def applyCandidate (host : Host β) (build : Build) (req : ApplyRequest) : SysM β CycleResult := do
  match (← applyWithWatchdog host build req).st with
  | .updated =>
    restartIntoNewBinary
    return .restarting
  | .deferred => return .deferred
  | .error => return .normal

/-- `run_cycle` after the local settings are read: the gates, the manifest, and the apply of what
they let through. -/
def runLocal (host : Host β) (build : Build) (cast : Json.FloatCast) (f : Fractions)
    (settings : UpdateSettings) : SysM β CycleResult := do
  match ← p.candidate cast f settings with
  | none => return .normal
  | some man => applyCandidate host build (p.request build settings man)

/-- `run_cycle`, with the new value of `last_interval_h_`, which is the interval of the local
settings. -/
def runCycle (host : Host β) (build : Build) (cast : Json.FloatCast) (f : Fractions)
    (user : User) : SysM β (CycleResult × Int32) := do
  let settings ← readLocal user p.configPath
  return (← p.runLocal host build cast f settings, settings.checkIntervalH)

end Cycle

end UpdatePoller

end ThinrAgent
