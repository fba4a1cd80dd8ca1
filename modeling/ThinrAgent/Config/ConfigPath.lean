import ThinrAgent.System.Host

/-!
# `ThinrAgent.Config.ConfigPath`: where the configuration lives

The paths `config_manager` computes (`config/config_manager.cpp`): the default path of a
user, a path given with `--config`, and the directory next to either. `User` is what the
functions ask the system for: the effective user, the variable `HOME` and the home directory
of the password database.
-/

set_option autoImplicit false

namespace ThinrAgent

/-- The configuration of an agent that runs as root. -/
def SYSTEM_CONFIG_PATH : Path := "/etc/thinr-agent/config.json"

/-- The configuration of an agent of another user, under the home directory. -/
def USER_CONFIG_PATH : Path := "~/.config/thinr-agent/config.json"

/-- What the system says about the user of the process: the effective id, `HOME` of the environment,
and the home directory of the password file. -/
structure User where
  euid : Nat
  home : Option Path
  pwDir : Option Path
  deriving DecidableEq, Repr

/-- `config_manager::expand_path`: a leading `~` is the home directory of the environment or of the
password file, and an exception where neither is known. -/
def expandPath (user : User) (path : Path) : Except Exc Path :=
  match path.toList with
  | '~' :: rest =>
    match user.home <|> user.pwDir with
    | some home => .ok (home ++ String.ofList rest)
    | none => .error (.runtimeError "Cannot determine home directory")
  | _ => .ok path

/-- The path of a default-constructed `config_manager`: the system's for root, and otherwise the
user's own, which throws where no home directory is known. -/
def defaultConfigPath (user : User) : Except Exc Path :=
  if user.euid = 0 then .ok SYSTEM_CONFIG_PATH else expandPath user USER_CONFIG_PATH

/-- `updater::default_state_dir`: the directory of the default configuration, whatever `--config`
says. -/
def defaultStateDir (user : User) : Except Exc Path :=
  (defaultConfigPath user).map parentPath

end ThinrAgent
