import ThinrAgent.Std.Json
import ThinrAgent.Std.Path
import ThinrAgent.Std.Registry

/-!
# `ThinrAgent.Extensions.Scripts`: executable files as resources

The scripts extension (`extensions/scripts.cpp`) registers each executable file of a directory as
a resource of the client, next to the native ones. `createResources` is the part of the
constructor of `agent` that fills the client, and `reload` is the rescan. The library's own
extensions register after the scripts. Their names are the parameter `late`.

The content of the directory holds, for each file, what a run of it with `--describe` gives. What
a resource does when it is called, and a directory that cannot be listed, are left out.
-/

set_option autoImplicit false

namespace ThinrAgent

/-- `path(name).stem()` of a file name: the text before the last dot, unless it is the first. -/
def stem (name : String) : String :=
  if name = ".." then name
  else
    match name.toList.reverse.dropWhile (· ≠ '.') with
    | _ :: c :: rest => String.ofList (c :: rest).reverse
    | _ => name

/-- The characters of a stem are characters of the name. -/
theorem mem_stem {name : String} {c : Char} (h : c ∈ (stem name).toList) : c ∈ name.toList := by
  unfold stem at h
  split at h
  · exact h
  · split at h
    · rename_i dot c' rest hdrop
      have hsuffix := List.dropWhile_suffix (l := name.toList.reverse) (· ≠ '.')
      rw [hdrop] at hsuffix
      refine List.mem_reverse.mp (hsuffix.mem (List.mem_cons_of_mem _ ?_))
      simpa [or_comm] using h
    · exact h

/-- A file of the scripts directory, with what the scan asks about it: its kind, its permissions,
and what it answers to `--describe`. -/
structure ScriptFile where
  filename : String
  noSlash : '/' ∉ filename.toList
  isRegularFile : Bool
  permissions : Nat
  /-- The exit code of the file with `--describe`. -/
  exitCode : Int32
  /-- The output of that run. `none` does not parse. -/
  output : Option Json

/-- The directory in the order it is listed. `none`: there is none. -/
abbrev ScriptsDir := Option (List ScriptFile)

/-- `scripts::script_info`: an executable that was found, with the name of its resource and the
description that it has printed. -/
structure ScriptInfo where
  path : Path
  name : String
  describe : Json

/-- What a name of the client is bound to. -/
inductive Handler where
  | native (name : String)
  | scriptsInfo
  | scriptsReload
  | inputOutput (scriptPath : Path) (describeSchema : Json)
  | outputOnly (scriptPath : Path)

/-- `scripts::scripts_directory`: the directory `scripts` next to the configuration file. -/
def scriptsDirectory (baseDirectory : Path) : Path := baseDirectory ++ "/scripts"

/-- `scripts::run_describe`: the object that the script prints with `--describe`. A script that
fails, or prints anything else, has no description. -/
def runDescribe (file : ScriptFile) : Json :=
  if file.exitCode ≠ 0 then .null
  else
    match file.output with
    | some json =>
      if json.isObject && (json.contains "input" || json.contains "output") then json else .null
    | none => .null

/-- One of the three permissions to execute is set. -/
def ScriptFile.isExecutable (file : ScriptFile) : Bool := file.permissions &&& 0o111 ≠ 0

/-- `scripts::scan_directory`: every regular file that can be executed is a script. The name of its
resource is the file's name without the extension. -/
def scanDirectory (baseDirectory : Path) (dir : ScriptsDir) : List ScriptInfo :=
  (dir.getD []).filterMap fun file =>
    if !file.isRegularFile then none
    else if !file.isExecutable then none
    else some { path := scriptsDirectory baseDirectory ++ "/" ++ file.filename
                name := stem file.filename
                describe := runDescribe file }

/-- The description advertises an input object with at least one entry. -/
def hasInput (describeSchema : Json) : Bool :=
  match describeSchema.find "input" with
  | some (.obj entries) => !entries.isEmpty
  | _ => false

/-- The handler that `scripts::register_resource` assigns to the name of the script. -/
def ScriptInfo.handler (info : ScriptInfo) : Handler :=
  if hasInput info.describe then .inputOutput info.path info.describe else .outputOnly info.path

/-- What the scripts register, in their order: each under its bare name. -/
def scriptEntries (scripts : List ScriptInfo) : List (String × Handler) :=
  scripts.map fun info => (info.name, info.handler)

/-- The resources of the client under their names, and the scripts found at the last scan,
`scripts_`. -/
structure ScriptResources where
  resources : Registry String Handler
  scripts : List ScriptInfo

/-- What is registered before the scripts: by `init_agent_info`, the monitoring, the updater, and
`register_management_resources`. -/
def earlyEntries : List (String × Handler) :=
  ["agent", "system", "monitoring", "update"].map (fun name => (name, .native name)) ++
    [("$scripts/info", .scriptsInfo), ("$scripts/reload", .scriptsReload)]

/-- The extensions that register after the scripts, each with its native handler. -/
def lateEntries (late : List String) : List (String × Handler) :=
  late.map fun name => (name, .native name)

/-- The resources of a newly constructed agent. The scripts are registered between the two groups of
native resources, so a late one overwrites a script of its name. -/
def createResources (late : List String) (baseDirectory : Path) (dir : ScriptsDir) :
    ScriptResources :=
  let scripts := scanDirectory baseDirectory dir
  { resources := ((Registry.empty.bindAll earlyEntries).bindAll (scriptEntries scripts)).bindAll
      (lateEntries late)
    scripts }

/-- `scripts::reload`: the directory is read again. The names of the scripts before are unbound, and
those of the scripts now are bound. -/
def reload (baseDirectory : Path) (s : ScriptResources) (dir : ScriptsDir) : ScriptResources :=
  let discovered := scanDirectory baseDirectory dir
  { resources := s.resources.replace (s.scripts.map ScriptInfo.name) (scriptEntries discovered)
    scripts := discovered }

end ThinrAgent
