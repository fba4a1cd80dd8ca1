import ThinrAgent.Cli.ArgumentParser
import ThinrAgent.Config.ConfigStore
import ThinrAgent.Extensions.Updater
import ThinrAgent.Update.UpdateSettings

/-!
# `ThinrAgent.Cli.UpdateCommand`: the command `update`

`command_handler::handle_update` of `cli/command_handler.cpp`: with `--policy` it stores the policy,
and otherwise it runs the updater. The result is the exit code with the lines that are printed, less
their colours.
-/

set_option autoImplicit false

namespace ThinrAgent

open Effects

section Command
variable {β : Type} (library : Exc → String) (configPath : Path)

/-- The settings with the policy of the options. -/
def UpdateSettings.withPolicy (settings : UpdateSettings) (policy : UpdatePolicy)
    (channel : String) :
    UpdateSettings :=
  { settings with
    policy
    source := .localExplicit
    channel := if channel ≠ "" then channel else settings.channel }

/-- The branch of `--policy`: the exit code and the lines that are printed. The options are checked
before the file is read, and a failed write is reported and gives one. -/
def setUpdatePolicy (options : UpdateOptions) : SysM β (Nat × List String) :=
  match UpdatePolicy.ofString options.policy with
  | none =>
    return (1, ["Invalid --policy '" ++ options.policy ++ "'. Use 'auto' or 'managed'."])
  | some policy => do
    if options.channel ≠ "" ∧ validChannel options.channel = false then
      return (1, ["Invalid --channel '" ++ options.channel ++ "'."])
    if !(← fsExists configPath) then
      return (1, ["No configuration found; install the agent first."])
    let updateObj ← readUpdateSection configPath
    let settings := (UpdateSettings.fromJson updateObj).withPolicy policy options.channel
    (do
      writeUpdateSection configPath settings.toJson
      return (0, ["Update policy set to " ++ settings.policy.toString ++ " (channel " ++
        settings.channel ++ ")."])).tryCatch fun e =>
          return (1, ["Failed to save update policy: " ++ e.what library])

/-- The lines about the local settings, which are printed only where there is a configuration and
nothing is to be applied. -/
def showSettings (options : UpdateOptions) : SysM β (List String) := do
  if options.apply || options.now then return []
  if !(← fsExists configPath) then return []
  let settings := UpdateSettings.fromJson (← readUpdateSection configPath)
  return ["Update policy:   " ++ settings.policy.toString, "Update channel:  " ++ settings.channel]

/-- What is printed about a run of the updater, with the exit code. -/
def reportRun (result : RunResult) : Nat × List String :=
  let latest := if result.latest = "" then [] else ["Latest version:  " ++ result.latest]
  let versions := ["Current version: " ++ result.current,
    "Architecture:    " ++ result.arch] ++ latest
  if result.status = "up_to_date" then (0, versions ++ ["Agent is already up to date."])
  else if result.status = "update_available" then
    (0, versions ++ ["Update available. Re-run with --apply to install it."])
  else if result.status = "updated" then
    (0, versions ++ ["Update applied. Restart the agent to use the new binary."])
  else
    let line := if result.message = "" then "Update failed." else result.message
    (1, versions ++ [line])

/-- `handle_update`: a policy on the command line is stored, and nothing else is done then. Without
one the settings are shown and the channel is asked, and with `--apply` or `--now` the update is
applied. -/
def handleUpdate (host : Host β) (build : Build) (user : User) (options : UpdateOptions) :
    SysM β (Nat × List String) :=
  if options.policy ≠ "" then setUpdatePolicy library configPath options
  else do
    let shown ← showSettings configPath options
    let action := if options.apply || options.now then Action.apply else .check
    let result ← run host build user library action options.channel .cli
    let report := reportRun result
    return (report.1, shown ++ report.2)

/-- The command of a line, when it is `update`. -/
def executeUpdate (host : Host β) (build : Build) (user : User) (parsed : ParsedCommand) :
    SysM β (Option (Nat × List String)) :=
  match parsed with
  | .update options => return some (← handleUpdate library configPath host build user options)
  | _ => return none

end Command

end ThinrAgent
