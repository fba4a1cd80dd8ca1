import ThinrAgent.Effects.Pool
import ThinrAgent.Scripts.Panic

/-!
# `ThinrAgent.Scripts.Channel`: the runs that write to the bucket

The job `upload_to_s3` of `build.yml`, with `channel.sh` and `gen-manifest.sh`, and `freeze.sh` and
`panic.sh` in the mode of `--bucket`. Each is a program over the operations on the bucket. Any
number of them may run at a time, so an object that a run reads may have been written by another
run since the one it read before.

S3 replaces an object as a whole. A read or an upload may fail, and an upload that is reported as
failed may have been stored. `aws s3 sync` tries every file, in an order of its own, and leaves out
a file that it takes to be there.

What is printed, the invalidation of the cache, the dry runs and the parameters of the build are
left out. The names of the architectures have no slash.
-/

set_option autoImplicit false

namespace ThinrAgent

open Effects Shell

/-! ### The bucket -/

/-- What a run does with the bucket: read an object, write one, leave one file to `aws s3 sync`, or
read the clock. -/
inductive BucketOp (β : Type) where
  | fetch (key : String)
  | upload (key : String) (content : Content β)
  | sync (key : String) (content : Content β)  -- one file of `aws s3 sync`
  | date

/-- A read gives the object, if it succeeds. A write gives whether it was reported to have
worked. -/
def BucketOp.Res {β : Type} : BucketOp β → Type
  | fetch _ => Option (Content β)
  | upload _ _ => Bool
  | sync _ _ => Bool
  | date => Nat

/-- The operations on the bucket as an interface, with the type of each one's answer. -/
abbrev bucket (β : Type) : Interface := ⟨BucketOp β, BucketOp.Res⟩

/-- A run. An exception is an exit with an error. -/
abbrev BucketM (β : Type) := Prog (bucket β) Unit

/-- What the environment decides of an operation: whether it is carried out, whether it is reported
as a success, and the clock. -/
structure BucketChoice where
  stored : Bool := true
  reported : Bool := true
  now : Nat := 0

/-- What an operation does to the bucket. An upload may be stored without being reported. -/
def bucketMachine {β : Type} : Machine (bucket β) (CdnFiles β) BucketChoice where
  exec cdn o c :=
    match o with
    | .fetch key => (if c.reported then cdn key else none, cdn)
    | .upload key content =>
      (c.stored && c.reported, if c.stored then cdn.bind key content else cdn)
    | .sync key content => (c.reported, if c.stored then cdn.bind key content else cdn)
    | .date => (c.now, cdn)

section
variable {β : Type}

/-- One operation on the bucket, as a program that returns its answer. -/
def askBucket (o : BucketOp β) : BucketM β o.Res := Prog.perform (I := bucket β) o

/-- `aws s3 cp` to the bucket. A failure makes the script exit, since it runs with `set -e`. -/
def uploadFile (key : String) (content : Content β) : BucketM β Unit := do
  let done : Bool ← askBucket (.upload key content)
  if done then return () else .throw ()

/-- `aws s3 sync`. It fails when a transfer has failed, after it has tried the others. -/
def syncAll : List (String × Content β) → BucketM β Bool
  | [] => return true
  | (key, content) :: rest => do
    let done : Bool ← askBucket (.sync key content)
    let others ← syncAll rest
    return done && others

/-- The order in which `aws s3 sync` transfers the files of a run. -/
structure Transfers (β : Type) where
  order : List (String × Content β) → List (String × Content β)
  perm : ∀ files, (order files).Perm files

/-- `thinr_cdn_sync_dir`: the files of a directory are uploaded in some order, and none is deleted.
An upload that fails makes the script exit. -/
def syncDir (transfers : Transfers β) (files : List (String × Content β)) : BucketM β Unit := do
  let done ← syncAll (transfers.order files)
  if done then return () else .throw ()

end

/-! ### `channel.sh` -/

/-- The text starts with `start`, character by character. -/
def startsWith (start text : String) : Bool := start.toList.isPrefixOf text.toList

/-- The expansion `${text#start}`: the text without `start` in front of it, or the whole text where
it does not begin so. -/
def dropStart (start text : String) : String :=
  if startsWith start text then String.ofList (text.toList.drop start.length) else text

/-- What `channel.sh` says about a tag or a branch. -/
structure Classified where
  channel : String
  isRelease : Bool
  isPrerelease : Bool
  installScript : String
  deriving DecidableEq

/-- `channel.sh classify`: what a git reference publishes. A stable tag gives a release, any other
tag a prerelease of its own, and `main` and `develop` give the channels of these names. A bare name
with a line that begins with `v` counts as a tag, and every other reference is refused. -/
def classify (ref : String) : Option Classified :=
  let name := dropStart "refs/heads/" (dropStart "refs/tags/" ref)
  -- A line of a bare name has to begin with v.
  if ref = "refs/tags/" ++ name ∨ (ref = name ∧ (name.splitOn "\n").any (startsWith "v")) then
    if isStableTag name then
      some { channel := name, isRelease := true, isPrerelease := false
             installScript := "install.sh" }
    else some { channel := name, isRelease := false, isPrerelease := true, installScript := "" }
  else if name = "main" then
    some { channel := "main", isRelease := false, isPrerelease := false
           installScript := "install-main.sh" }
  else if name = "develop" then
    some { channel := "develop", isRelease := false, isPrerelease := false
           installScript := "install-develop.sh" }
  else none

/-! ### The job `upload_to_s3` -/

/-- The pattern `v*.*.*` of the tags that start the workflow. -/
def tagFilter (name : String) : Bool :=
  match name.toList with
  | 'v' :: cs => !cs.contains '/' && 2 ≤ cs.count '.'
  | _ => false

/-- A push of the ref starts the workflow. -/
def triggers (ref : String) : Bool :=
  ref = "refs/heads/main" || ref = "refs/heads/develop" ||
    (startsWith "refs/tags/" ref && tagFilter (dropStart "refs/tags/" ref))

/-- A run of the workflow. An artifact is a binary `thinr-agent.<suffix>`. The names of the ref and
of the artifacts are names that git and the store of the artifacts allow. -/
structure PublishJob (β : Type) where
  ref : String
  triggered : triggers ref = true
  refName : '\\' ∉ ref.toList ∧ '\n' ∉ ref.toList
  describe : String  -- `git describe --tags --always`
  artifacts : List (String × β)
  nodup : (artifacts.map Prod.fst).Nodup
  names : ∀ artifact ∈ artifacts,
    '/' ∉ artifact.1.toList ∧ '\x00' ∉ artifact.1.toList ∧ '\n' ∉ artifact.1.toList
  soakH : String := ""  -- the variable AGENT_SOAK_H
  rampH : String := ""  -- the variable AGENT_RAMP_H
  installText : String := ""

namespace PublishJob

section
variable {β : Type} (job : PublishJob β)

/-- The version that is compiled into the binaries. -/
def embedVersion : String :=
  if startsWith "refs/tags/" job.ref then dropStart "refs/tags/" job.ref else job.describe

/-- The binaries as files of a directory of the CDN. -/
def files (channel : String) : List (String × Content β) :=
  job.artifacts.map fun (suffix, b) => (archiveKey channel suffix, .image b)

/-- The files under `binaries/` that are transferred: those of the channel, and for a release also
those of `latest`. -/
def binaries (c : Classified) : List (String × Content β) :=
  job.files c.channel ++ if c.isRelease then job.files "latest" else []

/-- The directory that `gen-manifest.sh` reads in the job: the artifacts under their
architectures. -/
def binaryDir (host : Host β) : BinaryDir where
  files := job.artifacts.map fun (suffix, b) => (suffix, { digest := host.sha256 (.image b) })
  nodup := by
    rw [List.map_map]
    exact job.nodup
  names := by
    intro file hfile
    obtain ⟨artifact, hmem, rfl⟩ := List.mem_map.mp hfile
    exact (job.names artifact hmem).2.1

/-- The two numbers of the rollout, soak and ramp: those of the job or the defaults for a release,
and none for a prerelease. -/
def rollout (c : Classified) : String × String :=
  if c.isRelease then
    (if job.soakH = "" then "72" else job.soakH, if job.rampH = "" then "96" else job.rampH)
  else ("0", "0")

/-- What `gen-manifest.sh` reads in the job: the directory of the channel's binaries, and the
clock. -/
def genEnv (host : Host β) (c : Classified) (now : Nat) : GenEnv where
  listing dir := if dir = "binaries/" ++ c.channel then some (job.binaryDir host) else none
  date := toString now
  sum := .classic
  writable _ := true

/-- The arguments that the job calls `gen-manifest.sh` with. -/
def genArgs (c : Classified) : List String :=
  ["--binaries-dir", "binaries/" ++ c.channel, "--version", job.embedVersion,
    "--soak-h", (job.rollout c).1, "--ramp-h", (job.rollout c).2, "--out", c.channel ++ ".json"]

/-- The step that validates the parameters of a release. -/
def validRollout (c : Classified) : Bool :=
  !c.isRelease || (validateUint (job.rollout c).1 && validateUint (job.rollout c).2)

/-- The install script of the channel, if it has one. -/
def uploadScript (c : Classified) : BucketM β Unit :=
  if c.installScript ≠ "" then uploadFile c.installScript (.raw job.installText) else return ()

/-- The manifest of the channel, and of `latest` for a release. -/
def uploadManifest (jq : Jq) (host : Host β) (c : Classified) (now : Nat) : BucketM β Unit :=
  match genManifest jq (job.genEnv host c now) (job.genArgs c) with
  | .success (some manifest) => do
    uploadFile (c.channel ++ ".json") (.json manifest)
    if c.isRelease then uploadFile "latest.json" (.json manifest) else return ()
  | _ => .throw ()

/-- The job: it uploads the binaries, the script and then the manifest, with the time at which it
gets there. -/
def program (jq : Jq) (host : Host β) (transfers : Transfers β) : BucketM β Unit :=
  match classify job.ref with
  | none => .throw ()
  | some c =>
    if job.validRollout c then do
      syncDir transfers (job.binaries c)
      job.uploadScript c
      let now : Nat ← askBucket .date
      job.uploadManifest jq host c now
    else .throw ()

end

end PublishJob

/-! ### `freeze.sh` -/

/-- `jq 'has("frozen_at")'` of one value, which is an error for a value that is no object. -/
def hasFrozen : Json → Option String
  | .obj kvs => some (if (kvs.lookup "frozen_at").isSome then "true" else "false")
  | _ => none

/-- `jq 'del(.frozen_at)'` of one value: the object without that key. -/
def unfreezeText : Json → Json
  | .obj kvs => .obj (kvs.filter fun entry => entry.1 ≠ "frozen_at")
  | j => j

section
variable {β : Type} (tools : CdnTools β)

/-- What `jq` writes to a file: one value as a text that parses, several values line by line. -/
def jqFile : List Json → Content β
  | [j] => .json j
  | docs => .raw (String.ofList (printLines (docs.map tools.text)))

/-- The script behind the read of the manifest. -/
def freezeDocs (jq : Jq) (freeze : Bool) (docs : List Json) : BucketM β Unit :=
  match docs.mapM hasFrozen, docs.mapM tools.versionText with
  | some has, some _ =>
    if freeze = true then
      if substitute (printLines has) = "true" then return ()
      else do
        let now : Nat ← askBucket .date
        uploadFile "latest.json" (jqFile tools (docs.map (freezeText (jq.print now))))
    else
      if substitute (printLines has) = "true" then
        uploadFile "latest.json" (jqFile tools (docs.map unfreezeText))
      else return ()
  | _, _ => .throw ()

/-- `freeze.sh --freeze` and `freeze.sh --unfreeze`: the manifest is fetched, changed and uploaded.
A manifest that cannot be read makes the script exit. -/
def freezeScript (jq : Jq) (freeze : Bool) : BucketM β Unit := do
  let found : Option (Content β) ← askBucket (.fetch "latest.json")
  match found.bind tools.inputs with
  | some docs => freezeDocs tools jq freeze docs
  | none => .throw ()

/-! ### `panic.sh` -/

/-- The staging directory of `panic.sh`: the binaries that were downloaded, by architecture, no
architecture twice. -/
structure Staged (β : Type) where
  files : List (String × Content β)
  nodup : (files.map Prod.fst).Nodup

namespace Staged
variable {β : Type}

/-- A file that was staged after this one stays. -/
def add (staged : Staged β) (arch : String) (content : Content β) : Staged β :=
  if h : arch ∈ staged.files.map Prod.fst then staged
  else
    { files := (arch, content) :: staged.files
      nodup := List.nodup_cons.mpr ⟨h, staged.nodup⟩ }

/-- The digests of the staged binaries, as `panic.sh` computes them. -/
def digests (host : Host β) (staged : Staged β) : Binaries where
  files := staged.files.map fun (arch, content) => (arch, digestField host arch content)
  nodup := by
    rw [List.map_map]
    exact staged.nodup

end Staged

/-- The loop that stages the archived binaries. There is no result when one is missing or empty. -/
def fetchArchived (version : String) : List String → BucketM β (Option (Staged β))
  | [] => return some ⟨[], List.nodup_nil⟩
  | arch :: rest => do
    let found : Option (Content β) ← askBucket (.fetch (archiveKey version arch))
    let others ← fetchArchived version rest
    match found.filter tools.hasSize, others with
    | some content, some staged => return some (staged.add arch content)
    | _, _ => return none

/-- The script from the check of the architectures on. -/
def repointRun (jq : Jq) (host : Host β) (transfers : Transfers β) (version arches : String) :
    BucketM β Unit :=
  if arches = "" then .throw ()
  else do
    match ← fetchArchived tools version (fields arches) with
    | none => .throw ()
    | some staged =>
      if staged.files.isEmpty then .throw ()
      else do
        syncDir transfers (staged.files.map fun (arch, content) => (latestKey arch, content))
        uploadFile "latest.json" (.json (manifestText jq version (staged.digests host) 1 0 0))

/-- `panic.sh`: point the rollout at a stable version. Nothing is written when the manifest cannot
be read, and nothing when it names the version already. -/
def panicRun (jq : Jq) (host : Host β) (transfers : Transfers β) (version : String) :
    BucketM β Unit :=
  if isStableTag version then do
    let found : Option (Content β) ← askBucket (.fetch "latest.json")
    match found.bind tools.inputs with
    | none => .throw ()
    | some docs =>
      match docs.mapM tools.versionText with
      | none => .throw ()
      | some versions =>
        if substitute (printLines versions) = version then return ()
        else
          match docs.mapM archNames with
          | none => .throw ()
          | some names =>
            repointRun tools jq host transfers version (substitute (printLines names.flatten))
  else .throw ()

end

/-! ### The runs -/

/-- A run that writes to the bucket, and the order of its transfers. -/
inductive BucketRun (β : Type) where
  | publish (job : PublishJob β) (transfers : Transfers β)
  | freeze
  | unfreeze
  | panic (version : String) (transfers : Transfers β)

/-- The script behind each kind of run, as a program on the bucket. -/
def BucketRun.program {β : Type} (tools : CdnTools β) (jq : Jq) (host : Host β) :
    BucketRun β → BucketM β Unit
  | publish job transfers => job.program jq host transfers
  | freeze => freezeScript tools jq true
  | unfreeze => freezeScript tools jq false
  | panic version transfers => panicRun tools jq host transfers version

/-- The runs over the bucket `cdn`, before the first step. -/
def bucketPool {β ι : Type} (tools : CdnTools β) (jq : Jq) (host : Host β)
    (runs : ι → BucketRun β) (cdn : CdnFiles β) : Pool (bucket β) Unit Unit (CdnFiles β) ι where
  threads i := (runs i).program tools jq host
  world := cdn

/-- The bucket after a schedule of the runs. -/
def bucketAfter {β ι : Type} [DecidableEq ι] (tools : CdnTools β) (jq : Jq) (host : Host β)
    (runs : ι → BucketRun β) (cdn : CdnFiles β) (schedule : List (ι × BucketChoice)) : CdnFiles β :=
  (Pool.run (fun _ => bucketMachine) (fun _ => none) schedule
    (bucketPool tools jq host runs cdn)).world

end ThinrAgent
