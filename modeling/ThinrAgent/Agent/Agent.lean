import ThinrAgent.Config.Credentials
import ThinrAgent.Runtime.UpdatePoller
import ThinrAgent.Utils.SslConfig

/-!
# `ThinrAgent.Agent.Agent`: the construction of the agent

The constructor of `agent`, and its life from there (`agent/agent.cpp`): the state directory, the
boot check, the certificates, the client, the watchdog, the poller and the extensions, in this
order. The client and the extensions are operations that may throw. What the threads do while the
agent waits is not part of this module.
-/

set_option autoImplicit false

namespace ThinrAgent

open Effects

/-- `state_dir_`: the directory of the configuration file the agent was started with, and the
default state directory where it was started without one. -/
def agentStateDir (user : User) (configPath : Path) : Except Exc Path :=
  if configPath = "" then defaultStateDir user else .ok (parentPath configPath)

section
variable {β : Type}

/-- The value of a call, or the exception of a library. -/
def orFail {α : Type} : Option α → SysM β α
  | some a => .ret a
  | none => .throw (.runtimeError "")

/-- Set up the client and its state dispatcher. -/
def configureClient : SysM β Unit := .call .configureClient orFail

/-- Construct the extensions, and subscribe to the remote configuration. -/
def initExtensions : SysM β Unit := .call .initExtensions orFail

/-- `agent::start`: the client begins to connect. What it does from here on is the library's, and
the states that it goes through come back as events. -/
def startClient : SysM β Unit := .call .startClient orFail

/-- The constructor after the boot check. When it throws, the members that exist are destroyed. -/
def initAgent (user : User) (certs : String) (build : Build) (credentials : DeviceCredentials)
    (configPath stateDir : Path) : SysM β (UpdateWatchdog × UpdatePoller) := do
  if !credentials.isValid then
    .throw (.invalidArgument "Invalid device credentials")
  else
    configureSslCertificates user certs
    configureClient
    let watchdog ← UpdateWatchdog.create stateDir build.version
    initExtensions.tryCatch fun e => do
      watchdog.stop
      .throw e
    return (watchdog, { deviceId := credentials.deviceId, configPath, stateDir,
                        runningVersion := build.version })

/-- The constructor of `agent`. The boot check comes first, before the certificates and the client,
and a rollback in it ends the construction with an exception. -/
def createAgent (user : User) (certs : String) (build : Build) (credentials : DeviceCredentials)
    (configPath : Path) : SysM β (UpdateWatchdog × UpdatePoller) :=
  match agentStateDir user configPath with
  | .error e => .throw e
  | .ok stateDir => do
    match ← checkBoot stateDir build.version with
    | .revertedExit => .throw .revertedRestartRequired
    | .proceed => initAgent user certs build credentials configPath stateDir

/-- Construct, start and wait, and destroy the agent at the end. -/
def runAgent (user : User) (certs : String) (build : Build) (credentials : DeviceCredentials)
    (configPath : Path) : SysM β Unit := do
  let (watchdog, _) ← createAgent user certs build credentials configPath
  startClient.ensure watchdog.stop

end

end ThinrAgent
