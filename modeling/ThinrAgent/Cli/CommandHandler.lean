import ThinrAgent.Agent.Agent

/-!
# `ThinrAgent.Cli.CommandHandler`: a start of the program without a command

`main`, the constructor of `command_handler`, `execute` and `handle_no_command`
(`main.cpp`, `cli/command_handler.cpp`, `installer/service_installer_factory.cpp`), for a command
line that names no command. What happens without a configuration (the interactive set-up, or a
refusal) is a parameter. `handleUpdateNow` is `handle_update` with `--apply` or `--now`.
-/

set_option autoImplicit false

namespace ThinrAgent

open Effects

/-- The init systems that the factory of service installers knows, and the case that none of them
was detected. -/
inductive InitSystem where
  | systemd
  | launchd
  | openRC
  | sysV
  | upstart
  | unknown
  deriving DecidableEq, Repr

/-- What `execute` reads of the command line: the path of the configuration file, if one was named,
and the level of the log. -/
structure ParseResult where
  configPath : Path := ""
  verbosityLevel : Nat := 3
  deriving DecidableEq

section InitSystem
variable {β : Type}

/-- One of the paths exists. They are asked for in order, up to the first that does. -/
def fsExistsAny : List Path → SysM β Bool
  | [] => return false
  | path :: paths => do
    if ← fsExists path then return true
    fsExistsAny paths

/-- Both paths exist. As with `&&` in the source, the second one is looked up only when the first
one is there. -/
def fsExistsBoth (first second : Path) : SysM β Bool := do
  if ← fsExists first then fsExists second else return false

/-- `detect_init_system`, with the name of the system that `uname` gives. On a system that is not
macOS, the files that belong to an init system tell which it is. -/
def detectInitSystem (sysname : Option String) : SysM β InitSystem := do
  if sysname = some "Darwin" then return .launchd
  if ← fsExistsAny ["/run/systemd/system", "/systemd"] then return .systemd
  if ← fsExists "/sbin/openrc" then return .openRC
  if ← fsExistsBoth "/etc/init.d/" "/sbin/rc-service" then return .openRC
  if ← fsExists "/sbin/upstart" then return .upstart
  if ← fsExistsBoth "/etc/init/" "/sbin/initctl" then return .upstart
  if ← fsExistsAny ["/etc/inittab", "/etc/rc.d/", "/etc/init.d/"] then return .sysV
  return .unknown

/-- The constructor of `service_installer`, which throws where the init system is unknown. -/
def createServiceInstaller (sysname : Option String) : SysM β Unit := do
  if (← detectInitSystem sysname) = .unknown then
    .throw (.runtimeError "Unsupported init system: Unknown")

end InitSystem

section Start
variable {β : Type}

/-- `get_service_status`: the answer of the service manager, or its exception. -/
def serviceStatus : SysM β ServiceStatus := .call .serviceStatus orFail

/-- `is_interactive_terminal`: the input and the output are a terminal, so the user can be asked. -/
def isInteractiveTerminal : SysM β Bool := .call .isInteractive .ret

/-- `show_management_menu`: what the user does there is left open. It returns, or throws. -/
def showManagementMenu : SysM β Bool := .call .managementMenu orFail

/-- The user manages the service, or leaves. The menu is for an installed service and a start
without `--config`. -/
def managesService (status : ServiceStatus) (configPath : Path) : SysM β Bool := do
  if status = .installedRunning ∨ status = .installedStopped then
    if ← isInteractiveTerminal then
      if configPath = "" then showManagementMenu else return false
    else return false
  else return false

variable (user : User) (certs : String) (build : Build) (setup : SysM β Nat)

/-- Agent mode: both kinds of exceptions end it with the exit code 1. -/
def agentMode (path : Path) : SysM β Nat :=
  (do
    let credentials ← load path
    runAgent user certs build credentials path
    return 0).tryCatch fun _ => return 1

/-- `handle_no_command`: the agent is run where a configuration is found, and the interactive setup
otherwise. A service that is managed from the menu ends it. -/
def handleNoCommand (path configPath : Path) : SysM β Nat := do
  if ← fsExists path then
    if ← managesService (← serviceStatus) configPath then return 0
    agentMode user certs build path
  else setup

/-- `execute`, with the path of the default configuration: the certificates are set up before the
command is handled. -/
def execute (defaultPath : Path) (res : ParseResult) : SysM β Nat := do
  -- The answer selects the log level only.
  if res.verbosityLevel = 1 then let _ ← fsExists defaultPath
  match configPathOf user res.configPath with
  | .error e => .throw e
  | .ok path =>
    configureSslCertificates user certs
    handleNoCommand user certs build setup path res.configPath

/-- The construction of `command_handler` with its members: two service installers, and the path of
the default configuration. -/
def createCommandHandler (sysname : Option String) : SysM β Path := do
  createServiceInstaller sysname
  match defaultConfigPath user with
  | .error e => .throw e
  | .ok defaultPath =>
    createServiceInstaller sysname
    return defaultPath

/-- `main` without a command: the exit code. An exception that reaches it gives one. -/
def mainNoCommand (sysname : Option String) (res : ParseResult) : SysM β Nat :=
  (do
    let defaultPath ← createCommandHandler user sysname
    execute user certs build setup defaultPath res).tryCatch fun _ => return 1

/-- The run of the updater in `handle_update` with `--apply` or `--now`. It makes no use of
`--config`. -/
def handleUpdateNow (host : Host β) (library : Exc → String) (channel : String) :
    SysM β RunResult :=
  run host build user library .apply channel .cli

end Start

/-- The `update` resource for the action `apply`, up to its answer. -/
def updateResource {β : Type} (user : User) (build : Build) (host : Host β) (library : Exc → String)
    (channel : String) : SysM β RunResult :=
  run host build user library .apply channel .iotmp

end ThinrAgent
