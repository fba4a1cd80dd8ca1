import ThinrAgent.Cli.CommandHandler
import ThinrAgent.Config.ConfigStore

/-!
# `ThinrAgent.Cli.Reconfigure`: the command `reconfigure`

`interactive_setup` as far as it saves the configuration, and `handle_reconfigure`
(`installer/interactive_setup.cpp`, `cli/command_handler.cpp`). What the user, the network and the
service manager answer during the setup are data (`SetupAnswers`), and what the installation of the
service and the connection test do to other files is left out. The setup has a `config_manager` of
its own, at the default path.
-/

set_option autoImplicit false

namespace ThinrAgent

open Effects

/-- `empty()` of a JSON value: null is empty, an array or an object without entries is, and every
other value is not. -/
def Json.isEmpty : Json → Bool
  | .null => true
  | .arr xs => xs.isEmpty
  | .obj kvs => kvs.isEmpty
  | _ => false

/-! ### The interactive setup -/

/-- The entries of the main menu of the interactive setup. -/
inductive MainMenuOption where
  | installService
  | configureStandalone
  | testConnection
  | exit
  deriving DecidableEq, Repr

/-- What the setup is answered. A call that throws has no value. -/
structure SetupAnswers where
  /-- The choice in the main menu. -/
  mainMenu : Option Int
  /-- The end of `authenticate`. -/
  authenticate : Option DeviceCredentials
  /-- `ssl_decision_` is `NO_VERIFY` when the configuration is saved. -/
  noVerify : Bool
  /-- The outcome of `test_connection`. -/
  connected : Bool
  /-- The choice after a connection test. -/
  nextStep : Option Int
  installService : Option Bool
  startService : Option Bool

section Setup
variable {β : Type} (configPath : Path) (a : SetupAnswers)

/-- `show_main_menu`: the number that the user has entered, as an option. Any other number than the
first three is the exit, and a closed input is an exception. -/
def showMainMenu : SysM β MainMenuOption :=
  match a.mainMenu with
  | none => .throw (.runtimeError "")
  | some 1 => return .installService
  | some 2 => return .configureStandalone
  | some 3 => return .testConnection
  | some _ => return .exit

/-- The credentials as they are saved: with `--no-verify` the verification of certificates is off in
them. -/
def finalCredentials (credentials : DeviceCredentials) : DeviceCredentials :=
  if a.noVerify then { credentials with verifySsl := false } else credentials

/-- `save` under its handler of exceptions: whether it has worked. -/
def trySave (credentials : DeviceCredentials) : SysM β Bool :=
  (do
    save configPath (finalCredentials a credentials)
    return true).tryCatch fun _ => return false

/-- `install_as_service`: save the credentials, install the service and start it. Each step needs
the one before, and a service that does not start is no failure. -/
def installAsService (credentials : DeviceCredentials) : SysM β Bool := do
  if !(← trySave configPath a credentials) then return false
  else if ← orFail a.installService then
    let _ ← orFail a.startService
    return true
  else return false

/-- `save_configuration_only`: save the credentials, and leave the services of the system alone. -/
def saveConfigurationOnly (credentials : DeviceCredentials) : SysM β Bool :=
  trySave configPath a credentials

/-- The choice after a connection test that has worked: install the service, save the configuration
only, or leave. -/
def afterConnectionTest (credentials : DeviceCredentials) : SysM β Bool := do
  if !a.connected then return false
  else
    match ← orFail a.nextStep with
    | 1 => installAsService configPath a credentials
    | 2 => saveConfigurationOnly configPath a credentials
    | _ => return true

/-- `interactive_setup::run`: the main menu, the login, and what the option does with the
credentials. Every exception ends the setup without success. -/
def runSetup : SysM β Bool :=
  (do
    match ← showMainMenu a with
    | .exit => return false
    | choice =>
      let credentials ← orFail a.authenticate
      if !credentials.isValid then return false
      else
        match choice with
        | .installService => installAsService configPath a credentials
        | .configureStandalone => saveConfigurationOnly configPath a credentials
        | _ => afterConnectionTest configPath a credentials).tryCatch fun _ => return false

/-- Construct an `interactive_setup` and run it. The constructor throws where the home directory or
the init system is unknown. -/
def interactiveSetup (user : User) (sysname : Option String) : SysM β Bool :=
  match defaultConfigPath user with
  | .error e => .throw e
  | .ok setupPath => do
    createServiceInstaller sysname
    runSetup setupPath a

end Setup

/-! ### `reconfigure` -/

section Reconfigure
variable {β : Type} (configPath : Path)

/-- `config_manager::remove`: the file is removed when it is there, and a failure of the removal is
an exception. -/
def removeConfig : SysM β Unit := do
  if ← fsExists configPath then
    if (← fsRemove configPath).isSome then .throw .filesystemError

/-- Read the `update` section and remove the configuration, where there is one. Without one the
section is null. -/
def takeUpdateSection : SysM β Json := do
  if ← fsExists configPath then
    let savedUpdate ← readUpdateSection configPath
    removeConfig configPath
    return savedUpdate
  else return .null

/-- Write the section into the new configuration. A failure is logged only. -/
def restoreUpdateSection (ok : Bool) (savedUpdate : Json) : SysM β Unit := do
  if ok && !savedUpdate.isEmpty then
    if ← fsExists configPath then
      (writeUpdateSection configPath savedUpdate).tryCatch fun _ => return ()

/-- `handle_reconfigure`, for the path of the handler's `config_manager`: the section is taken out,
the setup runs with its own path, and the section is put back if the setup succeeds. -/
def handleReconfigure (user : User) (sysname : Option String) (a : SetupAnswers) : SysM β Nat := do
  if !(← isInteractiveTerminal) then return 1
  else
    let savedUpdate ← takeUpdateSection configPath
    let ok ← interactiveSetup a user sysname
    restoreUpdateSection configPath ok savedUpdate
    return if ok then 0 else 1

end Reconfigure

end ThinrAgent
