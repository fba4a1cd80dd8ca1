import ThinrAgent.Config.ConfigManager
import ThinrAgent.Config.Credentials
import ThinrAgent.Utils.AtomicFile

/-!
# `ThinrAgent.Config.ConfigStore`: writing the configuration file

The writers of `config_manager` (`config/config_manager.cpp`). Both read the whole file, change
their part of it and replace the file. `save` goes on with an empty object when the file cannot be
read, and `writeUpdateSection` throws then.
-/

set_option autoImplicit false

namespace ThinrAgent

open Effects

section
variable {β : Type}

/-- `config_manager::ensure_config_directory`. The text of the library's own exception is left
out. -/
def ensureConfigDirectory (configPath : Path) : SysM β Unit := do
  let configDir := parentPath configPath
  if !(← fsExists configDir) then
    if (← fsCreateDirectories configDir).isNone then
      .throw (.runtimeError ("Failed to create config directory '" ++ configDir ++ "': "))

/-- `config_manager::write_raw`: the whole object is written atomically, readable by the owner only,
as it holds the token. -/
def writeRaw (configPath : Path) (config : Json) : SysM β Unit := do
  ensureConfigDirectory configPath
  if !(← writeAtomic configPath (.json config) 0o600) then
    .throw (.runtimeError ("Failed to write config file: " ++ configPath))

/-- The version that `save` stores, which is `1.0.0` for credentials without one. -/
def DeviceCredentials.storedVersion (credentials : DeviceCredentials) : String :=
  if credentials.version = "" then "1.0.0" else credentials.version

/-- The configuration with the credentials in it. The keys that `save` sets are replaced, and all
other keys of the file stay, the `update` section among them. -/
def Json.withCredentials (config : Json) (credentials : DeviceCredentials) : Json :=
  (((config.set "host" (.str credentials.host)).set "device" (.obj
    [("id", .str credentials.deviceId),
      ("name", .str credentials.deviceName),
      ("user", .str credentials.deviceUser),
      ("token", .str (encryptToken credentials.deviceToken))])).set
    "version" (.str credentials.storedVersion)).set
    "verify_ssl" (.bool credentials.verifySsl)

/-- `config_manager::save`: the credentials are put into the object that is in the file, so that the
other entries stay. When the file cannot be read the object begins empty. -/
def save (configPath : Path) (credentials : DeviceCredentials) : SysM β Unit := do
  if !credentials.isValid then .throw (.invalidArgument "Invalid device credentials")
  else
    ensureConfigDirectory configPath
    let config ← (readRaw configPath).tryCatch fun _ => return .obj []
    writeRaw configPath (config.withCredentials credentials)

/-- `config_manager::write_update_section`: the `update` entry is replaced in the object that is in
the file. A file that is missing or cannot be read is an exception, as the credentials would be
lost. -/
def writeUpdateSection (configPath : Path) (updateObj : Json) : SysM β Unit := do
  if !(← fsExists configPath) then
    .throw (.runtimeError ("Config file does not exist: " ++ configPath))
  else
    let config ← readRaw configPath
    writeRaw configPath (config.set "update" updateObj)

end

end ThinrAgent
