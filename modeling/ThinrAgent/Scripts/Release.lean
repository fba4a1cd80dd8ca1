import ThinrAgent.Std.Json
import ThinrAgent.Std.Shell

/-!
# `ThinrAgent.Scripts.Release`: the scripts that publish a manifest

`gen-manifest.sh`, `panic.sh` and `freeze.sh` with the helpers of `lib.sh`. A script is a
function of its arguments and of what it reads, and its result is the exit status with the
manifest it wrote. The digest of a binary is data, as is whether it can be read: what
`thinr_sha256` makes of the two is computed here. `Jq` and `Sha256sum` are what the scripts use of
`jq` and of `sha256sum`. An object that `jq` writes is kept as a JSON value, and an integer it
writes is the one `print` gives.
-/

set_option autoImplicit false

namespace ThinrAgent

open Shell

/-- The integers `jq` prints. It computes with `double`, so an integer up to `2 ^ 53` is printed
as it is, and a larger one may be rounded. -/
structure Jq where
  print : Int → Int
  exact : ∀ z, 0 ≤ z → z ≤ 2 ^ 53 → print z = z
  lt : ∀ z, z < 2 ^ 63 → print z < 2 ^ 64

/-- What the scripts use of `sha256sum`: for which paths the line it prints starts with a
backslash. A backslash or a newline in the path is such a mark's reason, and in newer versions a
carriage return. -/
structure Sha256sum where
  marks : String → Bool
  backslash : ∀ path, '\\' ∈ path.toList → marks path = true
  newline : ∀ path, '\n' ∈ path.toList → marks path = true
  plain : ∀ path, '\\' ∉ path.toList → '\n' ∉ path.toList → '\r' ∉ path.toList →
    marks path = false

/-- A `sha256sum` that marks a backslash and a newline only. -/
def Sha256sum.classic : Sha256sum where
  marks path := path.toList.any fun c => c = '\\' || c = '\n'
  backslash _ h := List.any_eq_true.mpr ⟨_, h, rfl⟩
  newline _ h := List.any_eq_true.mpr ⟨_, h, rfl⟩
  plain path hback hnewline _ := by
    rw [List.any_eq_false]
    intro c hc
    have hne : c ≠ '\\' ∧ c ≠ '\n' := ⟨fun h => hback (h ▸ hc), fun h => hnewline (h ▸ hc)⟩
    simp [hne]

/-- The classic tool marks the paths with a backslash or a newline. -/
theorem Sha256sum.marks_classic {path : String} : Sha256sum.classic.marks path = true ↔
    '\\' ∈ path.toList ∨ '\n' ∈ path.toList := by
  show (path.toList.any fun c => c = '\\' || c = '\n') = true ↔ _
  rw [List.any_eq_true]
  constructor
  · rintro ⟨c, hc, heq⟩
    rw [Bool.or_eq_true, decide_eq_true_eq, decide_eq_true_eq] at heq
    rcases heq with rfl | rfl
    · exact .inl hc
    · exact .inr hc
  · rintro (hc | hc)
    · exact ⟨_, hc, rfl⟩
    · exact ⟨_, hc, rfl⟩

/-- A binary: the digest of its bytes in hex, and whether `sha256sum` can read them. -/
structure BinaryFile where
  digest : String
  readable : Bool := true

/-- The files `thinr-agent.<suffix>` of a directory, each with its suffix, in the order of the
pathname expansion. The name of a file has no NUL character. -/
structure BinaryDir where
  files : List (String × BinaryFile)
  nodup : (files.map Prod.fst).Nodup
  names : ∀ file ∈ files, '\x00' ∉ file.1.toList

/-- The object `acc` of `thinr_checksums_json`: for each key what `thinr_sha256` has printed for
its file. -/
structure Binaries where
  files : List (String × String)
  nodup : (files.map Prod.fst).Nodup

/-- How a script ends: with an error, or with success and the manifest that it wrote, if it wrote
one. -/
inductive Exit where
  | failure
  | success (written : Option Json)

section Lib

/-- `thinr_validate_uint`: a nonempty string of decimal digits, without a bound on their number. -/
def validateUint (val : String) : Bool := val ≠ "" && val.toList.all Char.isDigit

/-- The value of a decimal digit, by the distance of its code from that of zero. -/
def digitValue (c : Char) : Nat := c.toNat - '0'.toNat

/-- `thinr_norm_uint`: the value of the digits, in the 64-bit arithmetic of the shell. -/
def normUint (val : String) : Int64 :=
  val.toList.foldl (fun acc c => acc * 10 + Int64.ofNat (digitValue c)) 0

/-- The text after a nonempty run of digits. -/
def dropNumber (cs : List Char) : Option (List Char) :=
  if (cs.takeWhile Char.isDigit).isEmpty then none else some (cs.dropWhile Char.isDigit)

/-- A line that matches `THINR_STABLE_TAG_REGEX`: a `v` and three numbers with dots between them. -/
def stableLine (line : List Char) : Bool :=
  match line with
  | 'v' :: cs =>
    match dropNumber cs with
    | some ('.' :: cs) =>
      match dropNumber cs with
      | some ('.' :: cs) => dropNumber cs = some []
      | _ => false
    | _ => false
  | _ => false

/-- `thinr_is_stable_tag`. A line of the tag has to match. -/
def isStableTag (tag : String) : Bool :=
  tag ≠ "" && (tag.splitOn "\n").any fun line => stableLine line.toList

/-- A program takes an argument that starts with a dash for an option. No path is one of those
the programs here have, so each of them fails. -/
def isOption (path : String) : Bool := path.toList.head? = some '-'

/-- `thinr_sha256`. The status of `sha256sum` is lost in the pipe, so a file that it cannot read
yields an empty text. The first field of the line begins with its mark. -/
def thinrSha256 (sum : Sha256sum) (path : String) (file : BinaryFile) : String :=
  if isOption path || !file.readable then ""
  else if sum.marks path then "\\" ++ file.digest
  else file.digest

/-- `sed 's/^thinr-agent\.//'` on one line: the prefix is dropped where the line has it. -/
def sedLine (line : List Char) : List Char :=
  if "thinr-agent.".toList.isPrefixOf line then line.drop "thinr-agent.".length else line

/-- The variable `suffix` for the file `name` at `path`: its name, with the start of each of its
lines taken off, as it comes back from the capture. -/
def suffixOf (path name : String) : String :=
  if isOption path then ""
  else substitute (printLines
    ((name.toList.splitOnP (· = '\n')).map fun line => .ofList (sedLine line)))

/-- `. + \x7b($k): $v\x7d`. A key that is there already gets the new value. -/
def Binaries.add (acc : Binaries) (key sha : String) : Binaries where
  files := acc.files.filter (·.1 ≠ key) ++ [(key, sha)]
  nodup := by
    rw [List.map_append, List.nodup_append]
    refine ⟨acc.nodup.sublist (List.filter_sublist.map _), by simp, ?_⟩
    intro name hname other hother
    obtain ⟨entry, hentry, rfl⟩ := List.mem_map.mp hname
    rw [List.map_singleton, List.mem_singleton] at hother
    have hne := (List.mem_filter.mp hentry).2
    rw [hother]
    simpa using hne

/-- The path of a binary in the directory `dir`. -/
def binaryPath (dir suffix : String) : String := dir ++ "/thinr-agent." ++ suffix

/-- The loop of `thinr_checksums_json` over the files of the directory `dir`. -/
def checksumLoop (sum : Sha256sum) (dir : String) :
    List (String × BinaryFile) → Binaries → Binaries
  | [], acc => acc
  | (suffix, file) :: rest, acc =>
    checksumLoop sum dir rest
      (acc.add (suffixOf (binaryPath dir suffix) ("thinr-agent." ++ suffix))
        (thinrSha256 sum (binaryPath dir suffix) file))

/-- `thinr_checksums_json`. It fails for a directory without a binary. -/
def thinrChecksumsJson (sum : Sha256sum) (dir : String) (files : List (String × BinaryFile)) :
    Option Binaries :=
  if files.isEmpty then none else some (checksumLoop sum dir files ⟨[], List.nodup_nil⟩)

/-- The JSON text of the checksums, one entry for each binary with the prefix `sha256:` before its
digest. -/
def checksumsJson (binaries : Binaries) : Json :=
  .obj (binaries.files.map fun (key, sha) => (key, .str ("sha256:" ++ sha)))

/-- The object that `jq -n` writes: the version, the checksums and the three numbers, as `jq` prints
them. -/
def manifestText (jq : Jq) (version : String) (binaries : Binaries)
    (publishedAt soakH rampH : Int) : Json :=
  .obj [("version", .str version), ("checksums", checksumsJson binaries),
    ("published_at", .int (jq.print publishedAt)), ("soak_h", .int (jq.print soakH)),
    ("ramp_h", .int (jq.print rampH))]

end Lib

section GenManifest

/-- The options of `gen-manifest.sh`, with the defaults of the script. -/
structure GenArgs where
  binariesDir : String := ""
  version : String := ""
  out : String := ""
  soakH : String := "72"
  rampH : String := "96"
  publishedAt : String := ""
  checkParams : Bool := false

/-- What the loop over the arguments comes to. -/
inductive ParsedArgs where
  | run (args : GenArgs)
  | help
  | error

/-- The loop over the arguments. A flag without its value is an unset variable, which ends the
script. -/
def parseGenArgs : List String → GenArgs → ParsedArgs
  | [], a => .run a
  | "--check-params" :: rest, a => parseGenArgs rest { a with checkParams := true }
  | "-h" :: _, _ => .help
  | "--help" :: _, _ => .help
  | [_], _ => .error
  | flag :: val :: rest, a =>
    if flag = "--binaries-dir" then parseGenArgs rest { a with binariesDir := val }
    else if flag = "--version" then parseGenArgs rest { a with version := val }
    else if flag = "--out" then parseGenArgs rest { a with out := val }
    else if flag = "--soak-h" then parseGenArgs rest { a with soakH := val }
    else if flag = "--ramp-h" then parseGenArgs rest { a with rampH := val }
    else if flag = "--published-at" then parseGenArgs rest { a with publishedAt := val }
    else .error

/-- What `gen-manifest.sh` reads and calls: the directories, the clock (`date -u +%s`), the
`sha256sum` that is installed, and whether a path can be written. -/
structure GenEnv where
  listing : String → Option BinaryDir
  date : String
  sum : Sha256sum
  writable : String → Bool

/-- The publication date: the option, or the clock when it is missing or empty. -/
def GenArgs.published (a : GenArgs) (env : GenEnv) : String :=
  if a.publishedAt = "" then env.date else a.publishedAt

/-- `gen-manifest.sh`: the numbers are checked first, then the arguments, and then the binaries are
summed and the manifest is written. -/
def genManifest (jq : Jq) (env : GenEnv) (args : List String) : Exit :=
  match parseGenArgs args {} with
  | .error => .failure
  | .help => .success none
  | .run a =>
    if !(validateUint a.soakH && validateUint a.rampH) then .failure
    else if a.checkParams then .success none
    else if a.binariesDir = "" || a.version = "" || a.out = "" then .failure
    else
      match env.listing a.binariesDir with
      | none => .failure
      | some dir =>
        if !validateUint (a.published env) then .failure
        else
          match thinrChecksumsJson env.sum a.binariesDir dir.files with
          | none => .failure
          | some checksums =>
            if !env.writable a.out then .failure
            else .success (some (manifestText jq a.version checksums
              (normUint (a.published env)).toInt (normUint a.soakH).toInt
              (normUint a.rampH).toInt))

end GenManifest

section Panic

/-- What `panic.sh` reads of the manifest that `latest` serves: the version, and the keys of its
checksums as the fields of a variable, without NUL characters and newlines. -/
structure LatestManifest where
  version : String
  arches : List String
  nodup : arches.Nodup
  names : ∀ arch ∈ arches, '\x00' ∉ arch.toList ∧ '\n' ∉ arch.toList

/-- What `panic.sh` finds: the manifest of `latest`, the archived binary of a version for an
architecture if it is there and not empty, the directory that `mktemp -d` made, and the
`sha256sum` that is installed. -/
structure Cdn where
  latest : Option LatestManifest
  archived : String → String → Option BinaryFile
  stage : String
  sum : Sha256sum

/-- The archived binaries of the version for the architectures that `latest` serves. -/
def Cdn.staged (cdn : Cdn) (version : String) (arches : List String) :
    List (String × BinaryFile) :=
  arches.filterMap fun arch => (cdn.archived version arch).map (arch, ·)

/-- The names in the staging directory are architectures. -/
theorem Cdn.staged_sublist (cdn : Cdn) (version : String) (arches : List String) :
    ((cdn.staged version arches).map Prod.fst).Sublist arches := by
  induction arches with
  | nil => exact .slnil
  | cons arch rest ih =>
    unfold staged at ih ⊢
    rw [List.filterMap_cons]
    cases cdn.archived version arch with
    | none => exact ih.cons arch
    | some file => exact ih.cons_cons arch

/-- The staging directory as a directory of binaries: its names are those of the manifest's
architectures, no name twice. -/
def Cdn.stagedDir (cdn : Cdn) (version : String) (latest : LatestManifest) : BinaryDir where
  files := cdn.staged version latest.arches
  nodup := latest.nodup.sublist (cdn.staged_sublist version latest.arches)
  names := fun _ hfile => (latest.names _ ((cdn.staged_sublist version latest.arches).subset
    (List.mem_map_of_mem hfile))).1

/-- `panic.sh` by the text that it publishes, for a manifest that was read. It stops before it
publishes anything when an archived binary is missing. -/
def panicScript (jq : Jq) (cdn : Cdn) (version : String) : Exit :=
  if !isStableTag version then .failure
  else
    match cdn.latest with
    | none => .failure
    | some latest =>
      if latest.version = version then .success none
      else if latest.arches.isEmpty then .failure
      else if latest.arches.any fun arch => (cdn.archived version arch).isNone then .failure
      else
        match thinrChecksumsJson cdn.sum cdn.stage (cdn.staged version latest.arches) with
        | none => .failure
        | some checksums => .success (some (manifestText jq version checksums 1 0 0))

end Panic

/-- `freeze.sh --freeze` on a manifest that is not frozen: `. + \x7bfrozen_at: T\x7d`. -/
def freezeText (T : Int) : Json → Json
  | .obj kvs => .obj (("frozen_at", .int T) :: kvs)
  | j => j

end ThinrAgent
