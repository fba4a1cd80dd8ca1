import ThinrAgent.Config.ConfigPath
import ThinrAgent.System.Calls

/-!
# `ThinrAgent.Config.ConfigManager`: reading the configuration file

The constructors of `config_manager` and the reader of its `update` section
(`config/config_manager.cpp`). `readRaw` throws for a file that is there and holds no JSON
object. `readUpdateSection` catches every exception, and gives the empty object then.
-/

set_option autoImplicit false

namespace ThinrAgent

open Effects

/-- The path of the `config_manager` the agent makes for a path it was started with, which is
empty for the default one. -/
def configPathOf (user : User) (configPath : Path) : Except Exc Path :=
  if configPath = "" then defaultConfigPath user else expandPath user configPath

section
variable {β : Type}

/-- `config_manager::read_raw`: the object in the file. A missing file is the empty object, and a
file that cannot be read, or that holds no object, is an exception. -/
def readRaw (configPath : Path) : SysM β Json := do
  if !(← fsExists configPath) then return .obj []
  match ← readFile configPath with
  | none => .throw (.runtimeError ("Cannot open config file for reading: " ++ configPath))
  | some content =>
    match content.parse with
    | some (.obj kvs) => return .obj kvs
    | _ => .throw (.runtimeError ("Corrupt config file: " ++ configPath))

/-- `config_manager::read_update_section`: the `update` entry of the configuration. Every failure is
an empty section, so the settings fall back to their defaults. -/
def readUpdateSection (configPath : Path) : SysM β Json :=
  (do
    let config ← readRaw configPath
    return (config.find "update").getD (.obj [])).tryCatch fun _ => return .obj []

/-- The `update` section in a file's text, as `read_update_section` finds it. A text that does not
parse, or that has no such section, gives an empty one. -/
def Content.updateSection (content : Content β) : Json :=
  match content.parse with
  | some (.obj kvs) => ((Json.obj kvs).find "update").getD (.obj [])
  | _ => .obj []

/-- The `update` section a reader of the configuration file finds. -/
def World.updateSection (w : World β) (configPath : Path) : Json :=
  match w.files configPath with
  | none => .obj []
  | some content => content.updateSection

end

section Rules

variable {β α : Type} {host : Host β} {A : SysOp β → Choice β → Prop} {J : World β → Prop}
  {Q : Except Exc α → World β → Prop} {w : World β}

/-- The section is read as it is in the file, or the file cannot be read and the section is
empty. -/
theorem wp_readUpdateSection {configPath : Path} {k : Json → SysM β α} (hJ : J w)
    (hok : cwp (hostMachine host) A J (k (w.updateSection configPath)) Q w)
    (hfail : CanFail A (.exists configPath) ∨ CanFail A (.read configPath) →
      cwp (hostMachine host) A J (k (.obj [])) Q w) :
    cwp (hostMachine host) A J (readUpdateSection configPath >>= k) Q w := by
  unfold readUpdateSection readRaw
  refine cwp_bind (cwp_tryCatch ?_)
  rw [Prog.bind_assoc]
  refine wp_fsExists hJ ?_ fun hf => ⟨hJ, hfail (.inl hf)⟩
  unfold World.updateSection at hok
  cases hfile : w.files configPath with
  | none =>
    rw [hfile] at hok
    exact ⟨hJ, hok⟩
  | some content =>
    simp only [Option.isSome_some, Bool.not_true, Bool.false_eq_true, if_false]
    rw [Prog.bind_assoc]
    refine wp_readFile hJ ?_ fun hf => ⟨hJ, hJ, hfail (.inr hf)⟩
    simp only [hfile, Content.updateSection] at hok ⊢
    split at hok
    · exact ⟨hJ, hok⟩
    · exact ⟨hJ, hJ, hok⟩

end Rules

end ThinrAgent
