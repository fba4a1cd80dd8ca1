import Mathlib.Data.List.Dedup
import ThinrAgent.Scripts.Release
import ThinrAgent.Std.Registry
import ThinrAgent.Std.Shell
import ThinrAgent.System.Host

/-!
# `ThinrAgent.Scripts.Panic`: `panic.sh` on a CDN directory

The script as a function of the files on the CDN, in the mode of `--cdn-dir`. `CdnFiles` maps
the keys to the contents. `panic` follows the script to its uploads, and `uploads` lists what it
writes, the binaries first. A run that is stopped leaves one of the states of
`Registry.Writing`: `cp` fills a file in place, so the file it was on may hold any part.

`panicScript` of `Scripts.Release` is the same script by the text it publishes, on a manifest
that was already read. Here the script reads the names of the architectures itself, and hands
them through the shell.

The names of the architectures have no pattern character, so the pathname expansion of
`for arch in $ARCHES` is left out. The option `--dry-run` is left out too.
-/

set_option autoImplicit false

namespace ThinrAgent

open Shell

/-- The files on the CDN, each under its key. -/
abbrev CdnFiles (β : Type) := Registry String (Content β)

/-- What the script uses of `jq -r` and of `test -s`. `inputs` is the values in a file, in
order, or none when the text is no sequence of values. `text` is how a value is printed that is
no string, and `isEmpty` tells the binaries of no bytes. -/
structure CdnTools (β : Type) where
  inputs : Content β → Option (List Json)
  inputs_json : ∀ j, inputs (.json j) = some [j]
  text : Json → String
  isEmpty : β → Bool

section
variable {β : Type} (tools : CdnTools β)

/-- `[ -s file ]`: the file is not empty. A text of JSON never is. -/
def CdnTools.hasSize : Content β → Bool
  | .image b => !tools.isEmpty b
  | .json _ => true
  | .raw s => s ≠ ""

/-- `jq -r '.version'` of one value. Only an object or a null can be indexed. -/
def CdnTools.versionText : Json → Option String
  | .null => some (tools.text .null)
  | .obj kvs =>
    match kvs.lookup "version" with
    | some (.str version) => some version
    | some entry => some (tools.text entry)
    | none => some (tools.text .null)
  | _ => none

/-- `jq -r '.checksums | keys[]'` of one value: the keys of an object, or the indices of an
array. -/
def archNames (doc : Json) : Option (List String) :=
  match doc.find "checksums" with
  | some (.obj kvs) => some ((kvs.map Prod.fst).mergeSort)
  | some (.arr xs) => some ((List.range xs.length).map Nat.repr)
  | _ => none

/-- The key under which the binary of a version is archived for an architecture. -/
def archiveKey (version arch : String) : String :=
  "binaries/" ++ version ++ "/thinr-agent." ++ arch

/-- The key of a binary in the channel `latest`. -/
def latestKey (arch : String) : String := archiveKey "latest" arch

/-- The archived binary of the version for the architecture, if it is there and not empty. -/
def archivedBinary (cdn : CdnFiles β) (version arch : String) : Option (Content β) :=
  (cdn (archiveKey version arch)).filter tools.hasSize

/-- The binaries in the staging directory: those archived for the version, for every architecture
that is served, no architecture twice. -/
def stagedBinaries (cdn : CdnFiles β) (version : String) (arches : List String) :
    List (String × Content β) :=
  arches.dedup.filterMap fun arch => (archivedBinary tools cdn version arch).map (arch, ·)

/-- `thinr_sha256` of the staged binary of an architecture. The line of `sha256sum` starts with
a backslash when there is one in the name of the file. -/
def digestField (host : Host β) (arch : String) (content : Content β) : String :=
  if '\\' ∈ arch.toList then "\\" ++ host.sha256 content else host.sha256 content

/-- A binary is staged once, also when its architecture is listed twice. -/
theorem stagedBinaries_nodup (cdn : CdnFiles β) (version : String) (arches : List String) :
    ((stagedBinaries tools cdn version arches).map Prod.fst).Nodup := by
  have hsub : ((stagedBinaries tools cdn version arches).map Prod.fst).Sublist arches.dedup := by
    unfold stagedBinaries
    induction arches.dedup with
    | nil => exact .slnil
    | cons arch rest ih =>
      rw [List.filterMap_cons]
      cases archivedBinary tools cdn version arch with
      | none => exact ih.cons arch
      | some content => exact ih.cons_cons arch
  exact (List.nodup_dedup arches).sublist hsub

/-- The staged binaries with their digests, as the fields of the new manifest's checksums. -/
def stagedDigests (host : Host β) (cdn : CdnFiles β) (version : String) (arches : List String) :
    Binaries where
  files := (stagedBinaries tools cdn version arches).map fun (arch, content) =>
    (arch, digestField host arch content)
  nodup := by
    rw [List.map_map]
    exact stagedBinaries_nodup tools cdn version arches

/-- How the script ends. `aborted` is an exit with an error before the first upload. -/
inductive PanicResult (β : Type) where
  | aborted
  | noOp
  | published (binaries : List (String × Content β)) (manifest : Json)

/-- The uploads, in order: each binary under `binaries/latest/`, and the manifest. -/
def uploads (binaries : List (String × Content β)) (manifest : Json) :
    List (String × Content β) :=
  binaries.map (fun (arch, content) => (latestKey arch, content)) ++
    [("latest.json", .json manifest)]

/-- The CDN when the script has ended: unchanged unless it has published. -/
def PanicResult.after (cdn : CdnFiles β) : PanicResult β → CdnFiles β
  | .aborted => cdn
  | .noOp => cdn
  | .published binaries manifest => cdn.bindAll (uploads binaries manifest)

/-- The script from the check of the architectures on. -/
def repoint (jq : Jq) (host : Host β) (cdn : CdnFiles β) (version arches : String) :
    PanicResult β :=
  if arches = "" then .aborted
  else if (fields arches).any fun arch => (archivedBinary tools cdn version arch).isNone then
    .aborted
  else if (stagedBinaries tools cdn version (fields arches)).isEmpty then .aborted
  else .published (stagedBinaries tools cdn version (fields arches))
    (manifestText jq version (stagedDigests tools host cdn version (fields arches)) 1 0 0)

/-- `panic.sh` up to its uploads: it aborts, finds the version in place already, or repoints the
channel. -/
def panic (jq : Jq) (host : Host β) (cdn : CdnFiles β) (version : String) : PanicResult β :=
  if !isStableTag version then .aborted
  else
    match (cdn "latest.json").bind tools.inputs with
    | none => .aborted
    | some docs =>
      match docs.mapM tools.versionText with
      | none => .aborted
      | some versions =>
        if substitute (printLines versions) = version then .noOp
        else
          match docs.mapM archNames with
          | none => .aborted
          | some names => repoint tools jq host cdn version (substitute (printLines names.flatten))

end

end ThinrAgent
