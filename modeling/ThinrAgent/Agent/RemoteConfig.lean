import ThinrAgent.Runtime.UpdatePoller

/-!
# `ThinrAgent.Agent.RemoteConfig`: the `config` property

The handler of the `config` property and `apply_config` (`agent/agent.cpp`). A payload may carry
the disk paths of the monitoring extension and the override of the update policy.
-/

set_option autoImplicit false

namespace ThinrAgent

/-- What a payload can reach: the disk paths of the monitoring extension, and the poller. Each
is there when the agent runs the extension. -/
structure Agent where
  diskPaths : Option (List (String × Path)) := none
  poller : Option UpdatePoller := none
  deriving DecidableEq

/-- A path that the server may ask to monitor: it is absolute and has no `..` among its parts. -/
def validDiskPath (path : Path) : Bool :=
  path.toList.head? = some '/' && !hasDotDot path.toList

/-- The disk paths of a payload's `monitoring` section, when it has some. -/
def disksIn (config : Json) : Option (List (String × Path)) :=
  match (config.find "monitoring").bind fun mon => mon.find "disks" with
  | some (.obj disks) => some (disks.filterMap fun disk =>
      match disk with
      | (name, .str path) => if validDiskPath path then some (name, path) else none
      | _ => none)
  | _ => none

namespace Agent

variable (a : Agent)

/-- The override goes to the poller, if the agent has one. -/
def setRemotePolicy (policy : Option UpdatePolicy) : Agent :=
  { a with poller := a.poller.map fun p => p.setRemotePolicy policy }

/-- The `update` part of `apply_config`. Without the section the remote policy is withdrawn, with a
valid policy it is replaced, and in every other case it stays as it is. -/
def applyUpdate (config : Json) : Agent :=
  match config.find "update" with
  | none => a.setRemotePolicy none
  | some update =>
    match update.find "policy" with
    | some (.str text) =>
      match UpdatePolicy.ofString text with
      | some policy => a.setRemotePolicy (some policy)
      | none => a  -- an invalid policy
    | _ => a       -- a malformed section

/-- `apply_config`: the disk paths go to the monitoring extension, if the agent has it, and then the
`update` section is looked at. Other entries of the payload are ignored. -/
def applyConfig (config : Json) : Agent :=
  ({ a with diskPaths := a.diskPaths.map fun paths => (disksIn config).getD paths }).applyUpdate
    config

/-- The handler of the `config` property. A payload that is no object, as an empty configuration is,
takes the remote override of the policy back. -/
def onConfig (payload : Json) : Agent :=
  if payload.isObject then a.applyConfig payload else a.setRemotePolicy none

end Agent

end ThinrAgent
