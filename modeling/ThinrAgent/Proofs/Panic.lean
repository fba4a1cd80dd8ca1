import ThinrAgent.Proofs.Checksum
import ThinrAgent.Proofs.Publisher
import ThinrAgent.Scripts.Panic

/-!
# `ThinrAgent.Proofs.Panic`: the channel after `panic.sh`

A run of the script aborts, does nothing, or repoints the channel. `Repointed` is the channel it
should leave, and `StopSafe` what a device may install from a channel the script was stopped on.
`ChannelCoherent` puts the three ends together.

The names of the architectures go from `jq` through the shell to the names of files and back to
`jq`. On the way an empty name is dropped and the NUL characters of a name, and the digest of a
file with a backslash in its name is marked. `channelCoherent_iff` says that this is all: the
script keeps the channel coherent when the manifest of `latest` has plain names, or when an
archived binary is missing anyway. A manifest of any shape may also read as the target, and is
then left as it is.

`exit_panic` connects the script on the files to `panicScript`, which takes the manifest as read.
-/

set_option autoImplicit false

namespace ThinrAgent

open Shell

section
variable {β : Type}

/-! ### The keys of the CDN -/

/-- The binaries of two architectures have different keys. -/
theorem latestKey_injective {arch arch' : String} (h : latestKey arch = latestKey arch') :
    arch = arch' := by
  rw [latestKey, latestKey, archiveKey, archiveKey] at h
  exact String.append_right_inj _ |>.mp h

/-- No binary has the key of the manifest. -/
theorem archiveKey_ne_manifest (version arch : String) :
    archiveKey version arch ≠ "latest.json" := by
  intro h
  have hhead := congrArg (fun s : String => s.toList.head?) h
  simp [archiveKey] at hhead

/-- The part of a text before its first slash. -/
theorem takeWhile_append_slash {xs ys : List Char} (h : '/' ∉ xs) :
    (xs ++ '/' :: ys).takeWhile (· ≠ '/') = xs := by
  rw [List.takeWhile_append_of_pos, List.takeWhile_cons_of_neg (by simp), List.append_nil]
  intro c hc
  have hne : c ≠ '/' := fun heq => h (heq ▸ hc)
  simpa using hne

/-- What follows the last slash determines what is before it. -/
theorem eq_of_append_slash {xs xs' ys ys' : List Char} (h : xs ++ '/' :: ys = xs' ++ '/' :: ys')
    (hy : '/' ∉ ys) (hy' : '/' ∉ ys') : xs = xs' := by
  have hrev : ys.reverse ++ '/' :: xs.reverse = ys'.reverse ++ '/' :: xs'.reverse := by
    simpa using congrArg List.reverse h
  have hend := congrArg (List.takeWhile (· ≠ '/')) hrev
  rw [takeWhile_append_slash (by simpa using hy), takeWhile_append_slash (by simpa using hy'),
    List.reverse_inj] at hend
  subst hend
  exact List.append_cancel_right h

/-- The archive of another version is not under `binaries/latest/`. -/
theorem archiveKey_ne_latestKey {version arch arch' : String} (hversion : version ≠ "latest")
    (h : '/' ∉ arch.toList) (h' : '/' ∉ arch'.toList) :
    archiveKey version arch ≠ latestKey arch' := by
  intro heq
  have hlist := congrArg String.toList heq
  have hname (a : String) : '/' ∉ "thinr-agent.".toList ++ a.toList ↔ '/' ∉ a.toList := by simp
  have hdir : "binaries/".toList ++ version.toList = "binaries/".toList ++ "latest".toList := by
    refine eq_of_append_slash ?_ ((hname arch).mpr h) ((hname arch').mpr h')
    simpa [latestKey, archiveKey] using hlist
  exact hversion (String.toList_injective (List.append_cancel_left hdir))

/-- A file under the directory of a version is not under `binaries/latest/`. -/
theorem archived_ne_latestKey {v file arch : String} (hv : v ≠ "latest") (h : '/' ∉ v.toList) :
    "binaries/" ++ v ++ "/" ++ file ≠ latestKey arch := by
  intro heq
  have hlist : v.toList ++ '/' :: file.toList =
      "latest".toList ++ '/' :: ("thinr-agent.".toList ++ arch.toList) := by
    have := congrArg String.toList heq
    simpa [latestKey, archiveKey] using this
  have hdir := congrArg (List.takeWhile (· ≠ '/')) hlist
  rw [takeWhile_append_slash h, takeWhile_append_slash (by decide)] at hdir
  exact hv (String.toList_injective hdir)

/-- No file of the archive has the key of the manifest: one begins with `binaries/`, the other does
not. -/
theorem archived_ne_manifest (v file : String) :
    "binaries/" ++ v ++ "/" ++ file ≠ "latest.json" := by
  intro h
  have hhead := congrArg (fun s : String => s.toList.head?) h
  simp at hhead

/-! ### What the script should leave -/

/-- `latest.json` is a text that parses and has this version. -/
def ServesVersion (cdn : CdnFiles β) (version : String) : Prop :=
  ∃ j, cdn "latest.json" = some (.json j) ∧ j.find "version" = some (.str version)

/-- The architectures that `latest.json` serves: the keys of its checksums, and none where it cannot
be read. -/
def servedArches (cdn : CdnFiles β) : List String :=
  match (cdn "latest.json").bind Content.parse with
  | none => []
  | some j =>
    match j.find "checksums" with
    | some (.obj kvs) => kvs.map Prod.fst
    | _ => []

/-- The channel after a run that repointed it to the version with this manifest. -/
structure Repointed (host : Host β) (cast : Json.FloatCast) (cdn after : CdnFiles β)
    (version : String) (manifest : Json) : Prop where
  served : after "latest.json" = some (.json manifest)
  version_eq : manifest.find "version" = some (.str version)
  arches : ∀ arch, arch ∈ servedArches after ↔ arch ∈ servedArches cdn
  checksums : ∀ arch ∈ servedArches cdn, ∃ content, after (latestKey arch) = some content ∧
    after (archiveKey version arch) = some content ∧
    (Manifest.parse cast (some manifest)).checksumFor arch = some ("sha256:" ++ host.sha256 content)
  notFrozen : manifest.find "frozen_at" = none
  eligible : ∀ f deviceId now, 1 ≤ now →
    evaluateEligibility f (Manifest.parse cast (some manifest)) deviceId now = .eligible
  archive : ∀ v file, v ≠ "latest" → '/' ∉ v.toList →
    after ("binaries/" ++ v ++ "/" ++ file) = cdn ("binaries/" ++ v ++ "/" ++ file)

/-- What `cp` may have put in place of a whole file: any bytes of a binary, and of a text one
that is no text of a JSON value. -/
def Partial (whole part : Content β) : Prop := ∀ j, whole = .json j → ∃ s, part = .raw s

/-- A device reads a manifest while the script runs, or when it was stopped, and then or later
downloads the binary and verifies it. It has the binary of the target, with the new manifest, or
it has the manifest that was there before, and a binary with the digest of the one it described.
The binaries are uploaded in any order. -/
def StopSafe (host : Host β) (cdn : CdnFiles β) (version : String)
    (binaries : List (String × Content β)) (manifest : Json) : Prop :=
  ∀ order : List (String × Content β), order.Perm binaries → ∀ i i' s s', i ≤ i' →
    Registry.Writing Partial cdn (uploads order manifest) i s →
    Registry.Writing Partial cdn (uploads order manifest) i' s' →
    ∀ j arch checksum content, (s "latest.json").bind Content.parse = some j →
      Carries (some j) arch checksum → s' (latestKey arch) = some content →
      HasDigest host checksum content →
      (j = manifest ∧ cdn (archiveKey version arch) = some content) ∨
        ((cdn "latest.json").bind Content.parse = some j ∧
          ∀ old, cdn (latestKey arch) = some old → HasDigest host checksum old →
            host.sha256 content = host.sha256 old)

/-- The three ends of a run of the script: it aborts and changes nothing, it finds the version
served already, or it publishes a channel that is repointed as a whole and safe to stop at any
upload. -/
def ChannelCoherent (tools : CdnTools β) (jq : Jq) (host : Host β) (cast : Json.FloatCast)
    (cdn : CdnFiles β) (version : String) : Prop :=
  (panic tools jq host cdn version = .aborted ∧ PanicResult.aborted.after cdn = cdn) ∨
  (panic tools jq host cdn version = .noOp ∧ PanicResult.noOp.after cdn = cdn ∧
    ServesVersion cdn version) ∨
  ∃ binaries manifest, panic tools jq host cdn version = .published binaries manifest ∧
    Repointed host cast cdn ((PanicResult.published binaries manifest).after cdn) version manifest ∧
    StopSafe host cdn version binaries manifest

/-! ### What the script reads -/

/-- A name of an architecture with no whitespace, no slash and no pattern character. -/
def CleanName (name : String) : Prop :=
  ∀ c ∈ name.toList, c.isWhitespace = false ∧ c ≠ '/' ∧ c ≠ '*' ∧ c ≠ '?' ∧ c ≠ '['

instance (name : String) : Decidable (CleanName name) :=
  List.decidableBAll _ name.toList

/-- The names of the architectures in `latest.json` are clean, so that the word splitting of the
script keeps them. -/
def CleanArches (tools : CdnTools β) (cdn : CdnFiles β) : Prop :=
  ∀ docs, (cdn "latest.json").bind tools.inputs = some docs → ∀ doc ∈ docs, ∀ kvs,
    doc.find "checksums" = some (.obj kvs) → ∀ entry ∈ kvs, CleanName entry.1

/-- The target is a stable version, and `latest.json` is a sequence of values with a version
each. -/
structure ReadsVersions (tools : CdnTools β) (cdn : CdnFiles β) (version : String)
    (docs : List Json)
    (versions : List String) : Prop where
  stable : isStableTag version = true
  docs_eq : (cdn "latest.json").bind tools.inputs = some docs
  versions_eq : docs.mapM tools.versionText = some versions

/-- A binary of the version is archived for each of the names, as far as a name is left without
its NUL characters, and there is one. -/
def Archived (tools : CdnTools β) (cdn : CdnFiles β) (version : String) (names : List String) :
    Prop :=
  (∃ name ∈ names, dropNul name ≠ "") ∧
    ∀ name ∈ names, dropNul name ≠ "" →
      (archivedBinary tools cdn version (dropNul name)).isSome = true

/-- A name that keeps its characters on the way through the shell, and has no backslash. -/
def PlainName (name : String) : Prop := name ≠ "" ∧ '\x00' ∉ name.toList ∧ '\\' ∉ name.toList

/-- `latest.json` is one text, and its checksums are an object with plain names. -/
def PlainArches (cdn : CdnFiles β) : Prop :=
  ∃ j kvs, cdn "latest.json" = some (.json j) ∧ j.find "checksums" = some (.obj kvs) ∧
    ∀ entry ∈ kvs, PlainName entry.1

section Reading
variable {tools : CdnTools β} {jq : Jq} {host : Host β} {cdn : CdnFiles β} {version : String}

/-- A binary is staged when its architecture is asked for and the archive has it. Which of two equal
architectures it was staged for plays no part. -/
theorem mem_stagedBinaries {arches : List String} {arch : String} {content : Content β} :
    (arch, content) ∈ stagedBinaries tools cdn version arches ↔
      arch ∈ arches ∧ archivedBinary tools cdn version arch = some content := by
  simp [stagedBinaries]

/-- What the second half of the script publishes, and when. -/
theorem repoint_eq_published_iff {arches : String} {binaries : List (String × Content β)}
    {manifest : Json} :
    repoint tools jq host cdn version arches = .published binaries manifest ↔
      (∃ arch, arch ∈ fields arches) ∧
      (∀ arch ∈ fields arches, (archivedBinary tools cdn version arch).isSome = true) ∧
      binaries = stagedBinaries tools cdn version (fields arches) ∧
      manifest = manifestText jq version (stagedDigests tools host cdn version (fields arches))
        1 0 0 := by
  unfold repoint
  split
  -- No architecture was given.
  · rename_i hempty
    constructor
    · rintro ⟨⟩
    · rintro ⟨⟨arch, harch⟩, -⟩
      exact absurd hempty (ne_empty_of_mem_fields harch)
  · split
    -- The archive lacks a binary.
    · rename_i hmissing
      constructor
      · rintro ⟨⟩
      · rintro ⟨-, hall, -⟩
        obtain ⟨arch, harch, hnone⟩ := List.any_eq_true.mp hmissing
        have := hall arch harch
        rw [Option.isNone_iff_eq_none] at hnone
        rw [hnone] at this
        cases this
    · rename_i hall
      have harchived : ∀ arch ∈ fields arches,
          (archivedBinary tools cdn version arch).isSome = true := by
        intro arch harch
        cases h : archivedBinary tools cdn version arch with
        | some content => rfl
        | none => exact absurd (List.any_eq_true.mpr ⟨arch, harch, by rw [h]; rfl⟩) hall
      split
      -- Every binary is there, so something was staged.
      · rename_i hnothing
        constructor
        · rintro ⟨⟩
        · rintro ⟨⟨arch, harch⟩, -⟩
          obtain ⟨content, hcontent⟩ := Option.isSome_iff_exists.mp (harchived arch harch)
          have hmem := mem_stagedBinaries.mpr ⟨harch, hcontent⟩
          rw [List.isEmpty_iff.mp hnothing] at hmem
          cases hmem
      · rename_i hsome
        constructor
        · rintro ⟨⟩
          obtain ⟨⟨arch, content⟩, hmem⟩ := List.exists_mem_of_ne_nil _
            (by simpa [List.isEmpty_iff] using hsome)
          exact ⟨⟨arch, (mem_stagedBinaries.mp hmem).1⟩, harchived, rfl, rfl⟩
        · rintro ⟨-, -, rfl, rfl⟩
          rfl

/-- Behind the check of the version the script aborts or publishes. It does not find out later that
there was nothing to do. -/
theorem repoint_ne_noOp {arches : String} : repoint tools jq host cdn version arches ≠ .noOp := by
  unfold repoint
  split
  · simp
  · split
    · simp
    · split <;> simp

/-- The runs that find the target in place. -/
theorem panic_eq_noOp_iff : panic tools jq host cdn version = .noOp ↔
    ∃ docs versions, ReadsVersions tools cdn version docs versions ∧
      substitute (printLines versions) = version := by
  unfold panic
  constructor
  · intro h
    -- The checks of the script in their order. A failed one aborts, so each of them has
    -- passed.
    split at h
    · cases h
    · rename_i hstable
      split at h
      · cases h
      · rename_i docs hdocs
        split at h
        · cases h
        · rename_i versions hversions
          split at h
          · rename_i heq
            exact ⟨docs, versions, ⟨by simpa using hstable, hdocs, hversions⟩, heq⟩
          · split at h
            · cases h
            · exact absurd h repoint_ne_noOp
  · rintro ⟨docs, versions, hread, heq⟩
    rw [if_neg (by simp [hread.stable])]
    simp only [hread.docs_eq, hread.versions_eq]
    rw [if_pos heq]

/-- The runs that publish, by what they have read: another version than the named one, and
architectures that are all archived. -/
theorem panic_eq_published_iff {binaries : List (String × Content β)} {manifest : Json} :
    panic tools jq host cdn version = .published binaries manifest ↔
      ∃ docs versions names, ReadsVersions tools cdn version docs versions ∧
        substitute (printLines versions) ≠ version ∧ docs.mapM archNames = some names ∧
        repoint tools jq host cdn version (substitute (printLines names.flatten)) =
          .published binaries manifest := by
  unfold panic
  constructor
  · intro h
    -- Every test of the script has to be passed.
    split at h
    · cases h
    · rename_i hstable
      split at h
      · cases h
      · rename_i docs hdocs
        split at h
        · cases h
        · rename_i versions hversions
          split at h
          · cases h
          · rename_i hne
            split at h
            · cases h
            · rename_i names hnames
              exact ⟨docs, versions, names, ⟨by simpa using hstable, hdocs, hversions⟩, hne,
                hnames, h⟩
  · rintro ⟨docs, versions, names, hread, hne, hnames, h⟩
    rw [if_neg (by simp [hread.stable])]
    simp only [hread.docs_eq, hread.versions_eq]
    rw [if_neg hne]
    simp only [hnames]
    exact h

/-- What `panicScript` takes as read, from the files: the version and the names of `latest.json`,
and the archived binaries. -/
def readCdn (tools : CdnTools β) (host : Host β) (cdn : CdnFiles β) : Cdn where
  latest := do
    let docs ← (cdn "latest.json").bind tools.inputs
    let versions ← docs.mapM tools.versionText
    let arches := fields (substitute (printLines (((docs.mapM archNames).getD []).flatten)))
    pure ⟨substitute (printLines versions), arches.dedup, List.nodup_dedup arches,
      fun _ h => line_of_mem_fields (List.mem_dedup.mp h)⟩
  archived version arch := (archivedBinary tools cdn version arch).map fun content =>
    { digest := host.sha256 content }
  stage := "/tmp/stage"
  sum := .classic

/-- The exit of the script with the manifest it wrote. -/
def PanicResult.exit : PanicResult β → Exit
  | .aborted => .failure
  | .noOp => .success none
  | .published _ manifest => .success (some manifest)

/-- The staged binaries are those that `panicScript` stages from the same files, with their
digests. -/
theorem staged_readCdn (arches : List String) :
    (readCdn tools host cdn).staged version arches.dedup =
      (stagedBinaries tools cdn version arches).map fun (arch, content) =>
        (arch, { digest := host.sha256 content }) := by
  simp only [Cdn.staged, stagedBinaries, List.map_filterMap]
  simp [readCdn, Function.comp_def]

/-- A path begins with a dash exactly when its directory does. A path that does would be taken for
an option of `sha256sum`. -/
theorem isOption_binaryPath (dirPath suffix : String) :
    isOption (binaryPath dirPath suffix) = isOption dirPath := by
  have hpath : (binaryPath dirPath suffix).toList.head? = dirPath.toList.head?.or (some '/') := by
    rw [binaryPath, String.toList_append, String.toList_append, List.head?_append,
      List.head?_append]
    cases dirPath.toList.head? <;> rfl
  rw [isOption, isOption, hpath]
  cases dirPath.toList.head? <;> simp

/-- What is printed for a file in a directory whose own path needs no mark. -/
theorem thinrSha256_classic {dirPath arch : String} (hoption : isOption dirPath = false)
    (hback : '\\' ∉ dirPath.toList) (hnewline : '\n' ∉ dirPath.toList)
    (harch : '\n' ∉ arch.toList) (content : Content β) :
    thinrSha256 .classic (binaryPath dirPath arch) { digest := host.sha256 content } =
      digestField host arch content := by
  have hpath : (binaryPath dirPath arch).toList =
      dirPath.toList ++ ("/thinr-agent.".toList ++ arch.toList) := by
    rw [binaryPath, String.toList_append, String.toList_append, List.append_assoc]
  have hmarks : Sha256sum.classic.marks (binaryPath dirPath arch) =
      decide ('\\' ∈ arch.toList) := by
    have hback' : '\\' ∉ "/thinr-agent.".toList := by decide
    have hnewline' : '\n' ∉ "/thinr-agent.".toList := by decide
    rw [Bool.eq_iff_iff, decide_eq_true_eq, Sha256sum.marks_classic, hpath]
    simp only [List.mem_append, hback, hnewline, hback', hnewline', harch, false_or, or_false]
  rw [thinrSha256, isOption_binaryPath, hoption, hmarks, digestField]
  simp

/-- The loop over the staging directory computes the digests of the staged binaries. -/
theorem checksums_readCdn {out : List Char}
    (hsome : stagedBinaries tools cdn version (fields (substitute out)) ≠ []) :
    thinrChecksumsJson .classic "/tmp/stage"
        ((readCdn tools host cdn).staged version (fields (substitute out)).dedup) =
      some (stagedDigests tools host cdn version (fields (substitute out))) := by
  generalize harches : fields (substitute out) = arches at hsome ⊢
  -- A name from the shell has neither a newline nor a NUL, so the suffix of its path is the name
  -- again.
  have hline : ∀ file ∈ stagedBinaries tools cdn version arches,
      '\x00' ∉ file.1.toList ∧ '\n' ∉ file.1.toList := by
    rintro ⟨arch, content⟩ hfile
    have harch := (mem_stagedBinaries.mp hfile).1
    rw [← harches] at harch
    exact line_of_mem_fields harch
  have hkeys : ∀ file ∈ (readCdn tools host cdn).staged version arches.dedup,
      suffixOf (binaryPath "/tmp/stage" file.1) ("thinr-agent." ++ file.1) = file.1 := by
    rw [staged_readCdn]
    intro file hfile
    obtain ⟨entry, hentry, rfl⟩ := List.mem_map.mp hfile
    have hoption : isOption (binaryPath "/tmp/stage" entry.1) = false := by
      rw [isOption_binaryPath]
      decide
    exact suffixOf_eq_self hoption (hline entry hentry).1 (hline entry hentry).2
  -- Under such a path the digest of the tool is the digest with its mark, if it has one.
  have hfiles : (checksumLoop .classic "/tmp/stage"
      ((readCdn tools host cdn).staged version arches.dedup) ⟨[], List.nodup_nil⟩).files =
        (stagedDigests tools host cdn version arches).files := by
    rw [checksumLoop_files hkeys, staged_readCdn, List.nil_append, List.map_map]
    · refine List.map_congr_left fun file hfile => ?_
      exact congrArg (file.1, ·) (thinrSha256_classic (by decide) (by decide) (by decide)
        (hline file hfile).2 file.2)
    · rw [List.map_nil, List.nil_append]
      exact (List.nodup_dedup arches).sublist ((readCdn tools host cdn).staged_sublist _ _)
  have hnonempty : ((readCdn tools host cdn).staged version arches.dedup).isEmpty = false := by
    rw [staged_readCdn, List.isEmpty_eq_false_iff]
    simpa using hsome
  rw [thinrChecksumsJson, hnonempty, if_neg Bool.false_ne_true, Option.some.injEq]
  generalize checksumLoop .classic "/tmp/stage" _ _ = checksums at hfiles ⊢
  cases checksums
  cases hfiles
  rfl

/-- The second half of `panicScript` ends as `repoint` does. -/
theorem exit_repoint (arches : String) :
    (repoint tools jq host cdn version arches).exit =
      if (fields arches).dedup.isEmpty then .failure
      else if (fields arches).dedup.any fun arch =>
        ((readCdn tools host cdn).archived version arch).isNone then .failure
      else .success (some (manifestText jq version (stagedDigests tools host cdn version
        (fields arches)) 1 0 0)) := by
  by_cases hpub : (∃ arch, arch ∈ fields arches) ∧
      ∀ arch ∈ fields arches, (archivedBinary tools cdn version arch).isSome = true
  · rw [repoint_eq_published_iff.mpr ⟨hpub.1, hpub.2, rfl, rfl⟩]
    obtain ⟨⟨arch, harch⟩, hall⟩ := hpub
    have hsome : (fields arches).dedup.isEmpty = false := by
      rw [List.isEmpty_eq_false_iff]
      exact List.ne_nil_of_mem (List.mem_dedup.mpr harch)
    have hmissing : ((fields arches).dedup.any fun arch =>
        ((readCdn tools host cdn).archived version arch).isNone) = false := by
      rw [List.any_eq_false]
      intro arch harch
      simpa [readCdn] using Option.isSome_iff_ne_none.mp (hall arch (List.mem_dedup.mp harch))
    rw [hsome, hmissing]
    rfl
  -- What is not published is aborted: this half has no third outcome.
  · have habort : repoint tools jq host cdn version arches = .aborted := by
      cases h : repoint tools jq host cdn version arches with
      | aborted => rfl
      | noOp => exact absurd h repoint_ne_noOp
      | published binaries manifest =>
        obtain ⟨hsome, hall, -⟩ := repoint_eq_published_iff.mp h
        exact absurd ⟨hsome, hall⟩ hpub
    rw [habort]
    show Exit.failure = _
    split
    · rfl
    · rename_i hsome
      obtain ⟨arch, harch⟩ := List.exists_mem_of_ne_nil _
        (by simpa [List.isEmpty_iff] using hsome)
      have hmissing : ∃ arch ∈ fields arches, archivedBinary tools cdn version arch = none := by
        by_contra hno
        refine hpub ⟨⟨arch, by simpa using harch⟩, fun arch harch => ?_⟩
        exact Option.isSome_iff_ne_none.mpr fun h => hno ⟨arch, harch, h⟩
      obtain ⟨arch, harch, hnone⟩ := hmissing
      rw [if_pos]
      refine List.any_eq_true.mpr ⟨arch, List.mem_dedup.mpr harch, ?_⟩
      simp [readCdn, hnone]

/-- With an archived binary for each name, and with a name, there is a binary to stage. -/
theorem stagedBinaries_ne_nil {arches : List String} (hsome : ¬ arches.dedup.isEmpty = true)
    (hall : ¬ (arches.dedup.any fun arch =>
      ((readCdn tools host cdn).archived version arch).isNone) = true) :
    stagedBinaries tools cdn version arches ≠ [] := by
  obtain ⟨arch, harch⟩ := List.exists_mem_of_ne_nil _ (by simpa [List.isEmpty_iff] using hsome)
  have hfound : archivedBinary tools cdn version arch ≠ none := by
    intro hnone
    refine hall (List.any_eq_true.mpr ⟨arch, List.mem_dedup.mpr harch, ?_⟩)
    simp [readCdn, hnone]
  obtain ⟨content, hcontent⟩ := Option.ne_none_iff_exists'.mp hfound
  exact List.ne_nil_of_mem (mem_stagedBinaries.mpr ⟨harch, hcontent⟩)

/-- The two embeddings of the script have the same exit, and write the same manifest. -/
theorem exit_panic :
    (panic tools jq host cdn version).exit = panicScript jq (readCdn tools host cdn) version := by
  unfold panic panicScript
  split
  · rfl
  -- By what `latest.json` holds: no document, no version text, no names, or all of it.
  · cases hdocs : (cdn "latest.json").bind tools.inputs with
    | none =>
      have hlatest : (readCdn tools host cdn).latest = none := by simp [readCdn, hdocs]
      rw [hlatest]
      rfl
    | some docs =>
      cases hversions : docs.mapM tools.versionText with
      | none =>
        have hlatest : (readCdn tools host cdn).latest = none := by
          simp [readCdn, hdocs, hversions]
        rw [hlatest]
        simp only [hversions]
        rfl
      | some versions =>
        -- The version is compared before the names are read, so bad names matter only afterwards.
        cases hnames : docs.mapM archNames with
        | none =>
          have hlatest : (readCdn tools host cdn).latest =
              some ⟨substitute (printLines versions), (fields (substitute (printLines []))).dedup,
                List.nodup_dedup _, fun _ h => line_of_mem_fields (List.mem_dedup.mp h)⟩ := by
            simp [readCdn, hdocs, hversions, hnames]
          rw [hlatest]
          simp only [hversions, hnames]
          split
          · rfl
          · rfl
        | some names =>
          have hlatest : (readCdn tools host cdn).latest =
              some ⟨substitute (printLines versions),
                (fields (substitute (printLines names.flatten))).dedup, List.nodup_dedup _,
                fun _ h => line_of_mem_fields (List.mem_dedup.mp h)⟩ := by
            simp [readCdn, hdocs, hversions, hnames]
          rw [hlatest]
          simp only [hversions, hnames]
          split
          · rfl
          · refine (exit_repoint _).trans ?_
            split
            · rfl
            · rename_i hsome
              split
              · rfl
              · rename_i hmissing
                rw [show (readCdn tools host cdn).sum = .classic from rfl,
                  show (readCdn tools host cdn).stage = "/tmp/stage" from rfl,
                  checksums_readCdn (stagedBinaries_ne_nil hsome hmissing)]

end Reading

/-! ### The names on their way through the shell -/

section Names

/-- The index of an array is a clean name. -/
theorem cleanName_repr (n : Nat) : CleanName n.repr := by
  intro c hc
  have hdigit : c.isDigit = true := by
    rw [Nat.repr, String.toList_ofList] at hc
    exact Nat.isDigit_of_mem_toDigits (by omega) (by omega) hc
  have hne {d : Char} (hd : d.isDigit = false) : c ≠ d := by
    rintro rfl
    rw [hd] at hdigit
    cases hdigit
  refine ⟨?_, hne (by decide), hne (by decide), hne (by decide), hne (by decide)⟩
  simp [Char.isWhitespace, hne (d := ' ') (by decide), hne (d := '\t') (by decide),
    hne (d := '\r') (by decide), hne (d := '\n') (by decide)]

/-- The names that `jq` prints for a manifest are clean when the keys of its checksums are. The
indices of an array are clean anyway. -/
theorem cleanName_of_archNames {doc : Json} {names : List String} (h : archNames doc = some names)
    (hclean : ∀ kvs, doc.find "checksums" = some (.obj kvs) → ∀ entry ∈ kvs, CleanName entry.1) :
    ∀ name ∈ names, CleanName name := by
  intro name hname
  unfold archNames at h
  split at h
  · rename_i kvs hfind
    cases h
    obtain ⟨entry, hentry, rfl⟩ := List.mem_map.mp (List.mem_mergeSort.mp hname)
    exact hclean kvs hfind entry hentry
  · cases h
    obtain ⟨n, -, rfl⟩ := List.mem_map.mp hname
    exact cleanName_repr n
  · cases h

variable {tools : CdnTools β} {jq : Jq} {host : Host β} {cdn : CdnFiles β} {version : String}

/-- All names that `jq` prints are clean, so the word splitting gives them back. -/
theorem CleanArches.cleanName (hclean : CleanArches tools cdn) {docs : List Json}
    {names : List (List String)} (hdocs : (cdn "latest.json").bind tools.inputs = some docs)
    (hnames : docs.mapM archNames = some names) : ∀ name ∈ names.flatten, CleanName name := by
  have hdoc := hclean docs hdocs
  clear hdocs hclean
  induction docs generalizing names with
  | nil =>
    cases hnames
    intro name hname
    cases hname
  | cons doc docs ih =>
    simp only [List.mapM_cons, Option.bind_eq_bind, Option.bind_eq_some_iff, Option.pure_def,
      Option.some.injEq] at hnames
    obtain ⟨head, hhead, rest, hrest, rfl⟩ := hnames
    intro name hname
    rw [List.flatten_cons, List.mem_append] at hname
    rcases hname with hname | hname
    · exact cleanName_of_archNames hhead (hdoc doc List.mem_cons_self) name hname
    · exact ih hrest (fun d hd => hdoc d (List.mem_cons_of_mem _ hd)) name hname

/-- A character that is no white space is none of the blanks of the shell. -/
theorem not_isBlank {c : Char} (h : c.isWhitespace = false) : isBlank c = false := by
  simp only [Char.isWhitespace, Bool.or_eq_false_iff, decide_eq_false_iff_not] at h
  simp [isBlank, h]

/-- The names that reach the loop of the script. -/
theorem mem_fields_iff {names : List String} (hclean : ∀ name ∈ names, CleanName name)
    {arch : String} : arch ∈ fields (substitute (printLines names)) ↔
      arch ≠ "" ∧ ∃ name ∈ names, dropNul name = arch := by
  rw [fields_substitute fun name hname c hc => not_isBlank (hclean name hname c hc).1,
    List.mem_filter, List.mem_map]
  simp [and_comm]

/-- Names without a slash go through the shell as fields without one, so a field is never a path
into another directory. -/
theorem slash_notMem_fields {names : List String} (hclean : ∀ name ∈ names, CleanName name)
    {arch : String} (h : arch ∈ fields (substitute (printLines names))) : '/' ∉ arch.toList := by
  obtain ⟨-, name, hname, rfl⟩ := (mem_fields_iff hclean).mp h
  exact fun hslash => (hclean name hname _ (mem_dropNul hslash)).2.1 rfl

/-- The checks of the script on the names are those of `Archived`. -/
theorem archived_iff {names : List String} (hclean : ∀ name ∈ names, CleanName name) :
    Archived tools cdn version names ↔
      (∃ arch, arch ∈ fields (substitute (printLines names))) ∧
        ∀ arch ∈ fields (substitute (printLines names)),
          (archivedBinary tools cdn version arch).isSome = true := by
  constructor
  · rintro ⟨⟨name, hname, hne⟩, hall⟩
    refine ⟨⟨dropNul name, (mem_fields_iff hclean).mpr ⟨hne, name, hname, rfl⟩⟩, ?_⟩
    intro arch harch
    obtain ⟨hne', name', hname', rfl⟩ := (mem_fields_iff hclean).mp harch
    exact hall name' hname' hne'
  · rintro ⟨⟨arch, harch⟩, hall⟩
    obtain ⟨hne, name, hname, rfl⟩ := (mem_fields_iff hclean).mp harch
    refine ⟨⟨name, hname, hne⟩, ?_⟩
    intro name' hname' hne'
    exact hall _ ((mem_fields_iff hclean).mpr ⟨hne', name', hname', rfl⟩)

/-- What the script makes of plain names is their set. -/
theorem mem_fields_of_plain (hclean : CleanArches tools cdn) (hplain : PlainArches cdn)
    {docs : List Json} {names : List (List String)}
    (hdocs : (cdn "latest.json").bind tools.inputs = some docs)
    (hnames : docs.mapM archNames = some names) (arch : String) :
    (arch ∈ fields (substitute (printLines names.flatten)) ↔ arch ∈ servedArches cdn) ∧
      (arch ∈ servedArches cdn → '\\' ∉ arch.toList) := by
  have hcleanName := hclean.cleanName hdocs hnames
  obtain ⟨j, kvs, hj, hfind, hplain⟩ := hplain
  have hserved : servedArches cdn = kvs.map Prod.fst := by
    rw [servedArches, hj]
    show (match j.find "checksums" with | some (.obj kvs) => kvs.map Prod.fst | _ => []) = _
    rw [hfind]
  -- The file is one text, so the names are the keys of one object.
  have hflat : ∀ name, name ∈ names.flatten ↔ name ∈ kvs.map Prod.fst := by
    rw [hj, Option.bind_some, tools.inputs_json, Option.some.injEq] at hdocs
    subst hdocs
    have hone : archNames j = some ((kvs.map Prod.fst).mergeSort) := by
      rw [archNames, hfind]
    simp only [List.mapM_cons, List.mapM_nil, hone, Option.bind_eq_bind, Option.bind_some,
      Option.pure_def, Option.some.injEq] at hnames
    subst hnames
    simp
  have hname : ∀ name ∈ names.flatten, PlainName name := by
    intro name hname
    obtain ⟨entry, hentry, rfl⟩ := List.mem_map.mp ((hflat name).mp hname)
    exact hplain entry hentry
  rw [hserved, ← hflat arch]
  refine ⟨?_, fun h => (hname arch h).2.2⟩
  rw [mem_fields_iff hcleanName]
  constructor
  · rintro ⟨-, name, hmem, rfl⟩
    rwa [dropNul_eq_self (hname name hmem).2.1]
  · intro h
    exact ⟨(hname arch h).1, arch, h, dropNul_eq_self (hname arch h).2.1⟩

end Names

/-! ### The uploads -/

section Uploads
variable {cdn : CdnFiles β} {binaries : List (String × Content β)} {manifest : Json}

/-- The key of the manifest is none of the keys of the binaries, so the last upload replaces none of
them. -/
theorem manifest_notMem_latestKeys :
    "latest.json" ∉ (binaries.map fun (arch, content) => (latestKey arch, content)).map
      Prod.fst := by
  intro hmem
  rw [List.map_map] at hmem
  obtain ⟨entry, -, hkey⟩ := List.mem_map.mp hmem
  exact archiveKey_ne_manifest "latest" entry.1 hkey

/-- No two binaries are for the same key. -/
theorem latestKeys_nodup (h : (binaries.map Prod.fst).Nodup) :
    ((binaries.map fun (arch, content) => (latestKey arch, content)).map Prod.fst).Nodup := by
  have hkeys : (binaries.map fun (arch, content) => (latestKey arch, content)).map Prod.fst =
      (binaries.map Prod.fst).map latestKey := by simp [Function.comp_def]
  rw [hkeys]
  exact h.map fun _ _ => latestKey_injective

/-- No two uploads are for the same key. -/
theorem uploads_nodup (h : (binaries.map Prod.fst).Nodup) :
    ((uploads binaries manifest).map Prod.fst).Nodup := by
  rw [uploads, List.map_append, List.nodup_append]
  refine ⟨latestKeys_nodup h, by simp, ?_⟩
  intro key hkey key' hkey' heq
  rw [heq, List.mem_singleton.mp hkey'] at hkey
  exact manifest_notMem_latestKeys hkey

/-- After the run `latest.json` is the new manifest. -/
theorem after_manifest (h : (binaries.map Prod.fst).Nodup) :
    (PanicResult.published binaries manifest).after cdn "latest.json" = some (.json manifest) :=
  Registry.bindAll_of_nodup _ (uploads_nodup h) (by simp [uploads])

/-- After the run each staged binary is under the key of its architecture. -/
theorem after_latestKey (h : (binaries.map Prod.fst).Nodup) {arch : String} {content : Content β}
    (hmem : (arch, content) ∈ binaries) :
    (PanicResult.published binaries manifest).after cdn (latestKey arch) = some content := by
  refine Registry.bindAll_of_nodup _ (uploads_nodup h) (List.mem_append_left _ ?_)
  exact List.mem_map.mpr ⟨(arch, content), hmem, rfl⟩

/-- Every file but the manifest and the binaries of `latest` is as it was. -/
theorem after_other {key : String} (hmanifest : key ≠ "latest.json")
    (hlatest : ∀ entry ∈ binaries, key ≠ latestKey entry.1) :
    (PanicResult.published binaries manifest).after cdn key = cdn key := by
  refine Registry.bindAll_of_notMem _ ?_
  simp only [uploads, List.map_append, List.map_map, List.map_cons, List.map_nil, List.mem_append,
    List.mem_map, List.mem_singleton, not_or, not_exists, not_and]
  exact ⟨fun entry hentry heq => hlatest entry hentry heq.symm, hmanifest⟩

end Uploads

/-- A character that is not the separator is passed over. -/
theorem splitOnAux_next {s sep : String} {b i : String.Pos.Raw} (hend : i.atEnd s = false)
    (hne : (i.get s == String.Pos.Raw.get sep 0) = false) (r : List String) :
    s.splitOnAux sep b i 0 r = s.splitOnAux sep b ((i.unoffsetBy 0).next s) 0 r := by
  rw [String.splitOnAux, hend, hne]
  rfl

/-- The split of a text is over at its end. It is one of the two equations with which a concrete tag
is split by evaluation. -/
theorem splitOnAux_atEnd {s sep : String} {b i : String.Pos.Raw} (hend : i.atEnd s = true) :
    s.splitOnAux sep b i 0 [] = [b.extract s i] := by
  rw [String.splitOnAux, if_pos hend]
  rfl

/-- The name of the channel is no stable version, so no archive has it. -/
theorem ne_latest_of_isStableTag {version : String} (h : isStableTag version = true) :
    version ≠ "latest" := by
  rintro rfl
  have hlines : "latest".splitOn "\n" = ["latest"] := by
    rw [String.splitOn, if_neg (by decide)]
    iterate 6 rw [splitOnAux_next (by decide +kernel) (by decide +kernel)]
    rw [splitOnAux_atEnd (by decide +kernel)]
    decide +kernel
  rw [isStableTag, hlines] at h
  revert h
  decide +kernel

section Published
variable {tools : CdnTools β} {jq : Jq} {host : Host β} {cast : Json.FloatCast}
  {cdn : CdnFiles β} {version : String} {arches : List String}

/-- The manifest that is published for the architectures, with the publication date 1 and no
rollout. -/
def repointText (tools : CdnTools β) (jq : Jq) (host : Host β) (cdn : CdnFiles β)
    (version : String) (arches : List String) : Json :=
  manifestText jq version (stagedDigests tools host cdn version arches) 1 0 0

/-- The architectures of a manifest are those that were staged. -/
theorem find_checksums_repointText :
    (repointText tools jq host cdn version arches).find "checksums" =
      some (.obj ((stagedBinaries tools cdn version arches).map fun (arch, content) =>
        (arch, .str ("sha256:" ++ digestField host arch content)))) := by
  simp [repointText, manifestText, Json.find, List.lookup_cons, checksumsJson, stagedDigests,
    Function.comp_def]

/-- An architecture for which the new manifest carries a checksum was staged. -/
theorem staged_of_carries {arch checksum : String}
    (h : Carries (some (repointText tools jq host cdn version arches)) arch checksum) :
    ∃ content, (arch, content) ∈ stagedBinaries tools cdn version arches := by
  obtain ⟨j, checksums, hj, hfind, hentry⟩ := h
  cases hj
  rw [find_checksums_repointText] at hfind
  cases hfind
  obtain ⟨before, after, hsplit, -⟩ := List.lookup_eq_some_iff.mp hentry
  have hmem : (arch, Json.str checksum) ∈ (stagedBinaries tools cdn version arches).map
      fun (arch, content) => (arch, .str ("sha256:" ++ digestField host arch content)) := by
    rw [hsplit]
    simp
  obtain ⟨⟨arch', content⟩, hstaged, heq⟩ := List.mem_map.mp hmem
  cases heq
  exact ⟨content, hstaged⟩

/-- The checksum of a staged binary, as a device reads it. -/
theorem checksumFor_repointText (hversion : version ≠ "") {arch : String} {content : Content β}
    (h : (arch, content) ∈ stagedBinaries tools cdn version arches) :
    (Manifest.parse cast (some (repointText tools jq host cdn version arches))).checksumFor arch =
      some ("sha256:" ++ digestField host arch content) := by
  rw [repointText, (agrees_repointed hversion).checksum_eq]
  have hfile : (arch, digestField host arch content) ∈
      (stagedDigests tools host cdn version arches).files :=
    List.mem_map.mpr ⟨(arch, content), h, rfl⟩
  rw [lookup_of_mem (stagedDigests tools host cdn version arches).nodup hfile]
  rfl

/-- A repointed manifest reaches every device whose clock is past the epoch. -/
theorem eligible_repointText (hversion : version ≠ "") (f : Fractions) (deviceId : String)
    {now : Int64} (hnow : 1 ≤ now) :
    evaluateEligibility f
      (Manifest.parse cast (some (repointText tools jq host cdn version arches))) deviceId now =
        .eligible := by
  -- The manifest has the date 1, no soak and no ramp, so only the clock could refuse.
  have hagrees : Agrees cast
      (manifestText jq version (stagedDigests tools host cdn version arches) 1 0 0) version
      (fun arch => (stagedDigests tools host cdn version arches).files.lookup arch) 1 0 0 :=
    agrees_repointed hversion
  have hclock : ¬ now < (Manifest.parse cast (some (repointText tools jq host cdn version
      arches))).publishedAt := by
    rw [Int64.lt_iff_toInt_lt, repointText, hagrees.published_eq]
    exact Int.not_lt.mpr (Int64.le_iff_toInt_le.mp hnow)
  have hsoak : ¬ (now.toInt : Rat) < (Manifest.parse cast (some (repointText tools jq host cdn
      version arches))).soakEnd := by
    rw [Manifest.soakEnd, repointText, hagrees.published_eq, hagrees.soak_eq]
    have hpast : (1 : Int) ≤ now.toInt := Int64.le_iff_toInt_le.mp hnow
    have hrat : (1 : Rat) ≤ now.toInt := by exact_mod_cast hpast
    push_cast
    linarith
  have hramp : (Manifest.parse cast (some (repointText tools jq host cdn version
      arches))).rampH ≤ 0 := by
    rw [repointText, hagrees.ramp_eq]
    simp
  unfold evaluateEligibility
  rw [if_neg (by simp [repointText, hagrees.valid]),
    if_neg (by simp [repointText, hagrees.notInvalid]),
    if_neg (by simp [repointText, hagrees.hasStaging]), if_neg hclock, if_neg hsoak, if_pos hramp]

/-- An archived binary is the content of its key. -/
theorem archived_eq {arch : String} {content : Content β}
    (h : archivedBinary tools cdn version arch = some content) :
    cdn (archiveKey version arch) = some content := by
  rw [archivedBinary, Option.filter_eq_some_iff] at h
  exact h.1

/-- The architectures of the channel that was repointed are those of the script's loop. -/
theorem mem_servedArches_after
    (hall : ∀ arch ∈ arches, (archivedBinary tools cdn version arch).isSome = true)
    (arch : String) :
    arch ∈ servedArches ((PanicResult.published (stagedBinaries tools cdn version arches)
      (repointText tools jq host cdn version arches)).after cdn) ↔ arch ∈ arches := by
  have hkeys : servedArches ((PanicResult.published (stagedBinaries tools cdn version arches)
      (repointText tools jq host cdn version arches)).after cdn) =
        (stagedBinaries tools cdn version arches).map Prod.fst := by
    rw [servedArches, after_manifest (stagedBinaries_nodup tools cdn version arches)]
    show (match (repointText tools jq host cdn version arches).find "checksums" with
      | some (.obj kvs) => kvs.map Prod.fst
      | _ => []) = _
    rw [find_checksums_repointText]
    simp [Function.comp_def]
  rw [hkeys]
  constructor
  · intro h
    obtain ⟨entry, hentry, rfl⟩ := List.mem_map.mp h
    exact (mem_stagedBinaries.mp hentry).1
  · intro h
    obtain ⟨content, hcontent⟩ := Option.isSome_iff_exists.mp (hall arch h)
    exact List.mem_map.mpr ⟨(arch, content), mem_stagedBinaries.mpr ⟨h, hcontent⟩, rfl⟩

/-- The archive of the target is not written. -/
theorem after_archiveKey (hversion : version ≠ "latest")
    (hslash : ∀ arch ∈ arches, '/' ∉ arch.toList) {arch : String} (harch : '/' ∉ arch.toList)
    (manifest : Json) :
    (PanicResult.published (stagedBinaries tools cdn version arches) manifest).after cdn
      (archiveKey version arch) = cdn (archiveKey version arch) := by
  refine after_other (archiveKey_ne_manifest version arch) ?_
  intro entry hentry
  exact archiveKey_ne_latestKey hversion harch (hslash _ (mem_stagedBinaries.mp hentry).1)

/-- The script leaves the channel as it should when its loop went over the architectures that
were served, and none of them has a backslash. -/
theorem repointed_of_same (hstable : isStableTag version = true)
    (hslash : ∀ arch ∈ arches, '/' ∉ arch.toList)
    (hall : ∀ arch ∈ arches, (archivedBinary tools cdn version arch).isSome = true)
    (hsame : ∀ arch, arch ∈ arches ↔ arch ∈ servedArches cdn)
    (hback : ∀ arch ∈ arches, '\\' ∉ arch.toList) :
    Repointed host cast cdn ((PanicResult.published (stagedBinaries tools cdn version arches)
      (repointText tools jq host cdn version arches)).after cdn) version
      (repointText tools jq host cdn version arches) where
  served := after_manifest (stagedBinaries_nodup tools cdn version arches)
  version_eq := by simp [repointText, manifestText, Json.find]
  arches arch := (mem_servedArches_after hall arch).trans (hsame arch)
  checksums := by
    intro arch harch
    have hmem := (hsame arch).mpr harch
    -- A served architecture is archived, so its binary was staged and uploaded.
    obtain ⟨content, hcontent⟩ := Option.isSome_iff_exists.mp (hall arch hmem)
    have hstaged := mem_stagedBinaries.mpr ⟨hmem, hcontent⟩
    refine ⟨content, after_latestKey
      (stagedBinaries_nodup tools cdn version arches) hstaged, ?_, ?_⟩
    · rw [after_archiveKey (ne_latest_of_isStableTag hstable) hslash (hslash arch hmem)]
      exact archived_eq hcontent
    · rw [checksumFor_repointText (ne_empty_of_isStableTag hstable) hstaged, digestField,
        if_neg (hback arch hmem)]
  notFrozen := by simp [repointText, manifestText, Json.find]
  eligible f deviceId _ hnow :=
    eligible_repointText (ne_empty_of_isStableTag hstable) f deviceId hnow
  archive v file hv hfile := by
    refine after_other (archived_ne_manifest v file) ?_
    intro entry _
    exact archived_ne_latestKey hv hfile

/-- The binaries are all there before the manifest is touched. -/
theorem stopSafe_staged : StopSafe host cdn version (stagedBinaries tools cdn version arches)
    (repointText tools jq host cdn version arches) := by
  intro order hperm i i' s s' hle hs hs' j arch checksum content hj hcarries hcontent hdigest
  have hnodup : (order.map Prod.fst).Nodup :=
    (hperm.map Prod.fst).nodup_iff.mpr (stagedBinaries_nodup tools cdn version arches)
  -- The manifest is uploaded last: it is the old one, the new one, or a part.
  rcases hs.last manifest_notMem_latestKeys with hold | ⟨hi, hnew | ⟨part, hpart, hnew⟩⟩
  · rw [hold] at hj
    refine .inr ⟨hj, fun old _ hdigest' => ?_⟩
    rw [HasDigest, ← hdigest'] at hdigest
    exact String.append_right_inj _ |>.mp hdigest
  · -- The new manifest is whole, so every binary is.
    rw [hnew] at hj
    obtain rfl : repointText tools jq host cdn version arches = j := by
      simpa [Content.parse] using hj
    refine .inl ⟨rfl, ?_⟩
    obtain ⟨binary, hstaged⟩ := staged_of_carries hcarries
    have hdone : s' (latestKey arch) = some binary := by
      rw [hs'.of_done (by omega) (by simpa [latestKey] using archiveKey_ne_manifest "latest" arch)]
      refine Registry.bindAll_of_nodup _ ?_
        (List.mem_map.mpr ⟨(arch, binary), hperm.mem_iff.mpr hstaged, rfl⟩)
      exact latestKeys_nodup hnodup
    obtain rfl : binary = content := by simpa [hdone] using hcontent
    exact archived_eq (mem_stagedBinaries.mp hstaged).2
  · -- A part of the manifest is no manifest.
    obtain ⟨text, rfl⟩ := hpart _ rfl
    rw [hnew] at hj
    cases hj

/-- The script keeps the names of a channel that it repoints only when they are plain. -/
theorem plainArches_of_repointed (hclean : CleanArches tools cdn)
    (hstable : isStableTag version = true) {docs : List Json} {names : List (List String)}
    (hdocs : (cdn "latest.json").bind tools.inputs = some docs)
    (hnames : docs.mapM archNames = some names)
    (harchived : Archived tools cdn version names.flatten)
    (h : Repointed host cast cdn ((PanicResult.published
      (stagedBinaries tools cdn version (fields (substitute (printLines names.flatten))))
      (repointText tools jq host cdn version
        (fields (substitute (printLines names.flatten))))).after cdn) version
      (repointText tools jq host cdn version
        (fields (substitute (printLines names.flatten))))) : PlainArches cdn := by
  have hcleanName := hclean.cleanName hdocs hnames
  obtain ⟨⟨arch, harch⟩, hall⟩ := (archived_iff hcleanName).mp harchived
  have hsame (arch : String) : arch ∈ fields (substitute (printLines names.flatten)) ↔
      arch ∈ servedArches cdn := (mem_servedArches_after hall arch).symm.trans (h.arches arch)
  -- Something is served, so `latest.json` is a text with an object of checksums.
  have hserved := (hsame arch).mp harch
  rw [servedArches] at hserved
  split at hserved
  · cases hserved
  · rename_i j hj
    split at hserved
    · rename_i kvs hfind
      have hkeys : servedArches cdn = kvs.map Prod.fst := by
        rw [servedArches, hj]
        show (match j.find "checksums" with | some (.obj kvs) => kvs.map Prod.fst | _ => []) = _
        rw [hfind]
      obtain ⟨file, hfile, hparse⟩ := Option.bind_eq_some_iff.mp hj
      have hjson : file = .json j := by
        cases file with
        | json j' => exact congrArg Content.json (Option.some.inj hparse)
        | _ => cases hparse
      refine ⟨j, kvs, by rw [hfile, hjson], hfind, ?_⟩
      intro entry hentry
      have hentry : entry.1 ∈ servedArches cdn := by
        rw [hkeys]
        exact List.mem_map_of_mem hentry
      have hfield := (hsame entry.1).mpr hentry
      obtain ⟨hne, name, -, hname⟩ := (mem_fields_iff hcleanName).mp hfield
      refine ⟨hne, hname ▸ nul_notMem_dropNul name, fun hback => ?_⟩
      -- The archived binary of the name has one digest, and the manifest has it marked.
      obtain ⟨content, hcontent⟩ := Option.isSome_iff_exists.mp (hall entry.1 hfield)
      obtain ⟨binary, -, hbinary, hsum⟩ := h.checksums entry.1 hentry
      rw [after_archiveKey (ne_latest_of_isStableTag hstable)
        (fun _ harch => slash_notMem_fields hcleanName harch)
        (slash_notMem_fields hcleanName hfield), archived_eq hcontent] at hbinary
      obtain rfl : content = binary := by simpa using hbinary
      rw [checksumFor_repointText (ne_empty_of_isStableTag hstable)
        (mem_stagedBinaries.mpr ⟨hfield, hcontent⟩), digestField, if_pos hback,
        Option.some.injEq, String.append_right_inj] at hsum
      have hlen := congrArg String.length hsum
      rw [String.length_append] at hlen
      have hone : "\\".length = 1 := by decide
      omega
    · cases hserved

end Published

/-- The condition: what reads as the target is the target, and when a binary of the target is
archived for every name the script finds, the names are plain. -/
def PanicSafe (tools : CdnTools β) (cdn : CdnFiles β) (version : String) : Prop :=
  ∀ docs versions, ReadsVersions tools cdn version docs versions →
    (substitute (printLines versions) = version → ServesVersion cdn version) ∧
      (substitute (printLines versions) ≠ version → ∀ names, docs.mapM archNames = some names →
        Archived tools cdn version names.flatten → PlainArches cdn)

section Main
variable {tools : CdnTools β} {jq : Jq} {host : Host β} {cast : Json.FloatCast}
  {cdn : CdnFiles β} {version : String}

/-- A channel that the run leaves coherent was safe for it. Where the names are not plain, the run
leaves a manifest that the condition of coherence rejects. -/
theorem panicSafe_of_coherent (hclean : CleanArches tools cdn)
    (h : ChannelCoherent tools jq host cast cdn version) : PanicSafe tools cdn version := by
  intro docs versions hread
  constructor
  · intro heq
    have hnoOp : panic tools jq host cdn version = .noOp :=
      panic_eq_noOp_iff.mpr ⟨docs, versions, hread, heq⟩
    -- A run that finds the version in place is coherent only when the channel serves it.
    rcases h with ⟨habort, -⟩ | ⟨-, -, hserves⟩ | ⟨binaries, manifest, hpub, -⟩
    · rw [hnoOp] at habort
      cases habort
    · exact hserves
    · rw [hnoOp] at hpub
      cases hpub
  · intro hne names hnames harchived
    -- A run that publishes has gone over the names as the shell passes them.
    have hcleanName := hclean.cleanName hread.docs_eq hnames
    obtain ⟨hsome, hall⟩ := (archived_iff hcleanName).mp harchived
    have hrun : repoint tools jq host cdn version (substitute (printLines names.flatten)) =
        .published _ _ := repoint_eq_published_iff.mpr ⟨hsome, hall, rfl, rfl⟩
    have hpanic := panic_eq_published_iff.mpr ⟨docs, versions, names, hread, hne, hnames, hrun⟩
    rcases h with ⟨habort, -⟩ | ⟨hnoOp, -⟩ | ⟨binaries, manifest, hpub, hrepointed, -⟩
    · rw [hpanic] at habort
      cases habort
    · rw [hpanic] at hnoOp
      cases hnoOp
    · rw [hpanic] at hpub
      obtain ⟨hbinaries, hmanifest⟩ := PanicResult.published.inj hpub
      rw [← hbinaries, ← hmanifest] at hrepointed
      exact plainArches_of_repointed hclean hread.stable hread.docs_eq hnames harchived hrepointed

/-- A channel that is safe for the run is left coherent: the run aborts, does nothing, or repoints
it with plain names. -/
theorem coherent_of_panicSafe (hclean : CleanArches tools cdn)
    (h : PanicSafe tools cdn version) : ChannelCoherent tools jq host cast cdn version := by
  cases hpanic : panic tools jq host cdn version with
  | aborted => exact .inl ⟨hpanic, rfl⟩
  | noOp =>
    obtain ⟨docs, versions, hread, heq⟩ := panic_eq_noOp_iff.mp hpanic
    exact .inr (.inl ⟨hpanic, rfl, (h docs versions hread).1 heq⟩)
  | published binaries manifest =>
    obtain ⟨docs, versions, names, hread, hne, hnames, hrun⟩ := panic_eq_published_iff.mp hpanic
    obtain ⟨hsome, hall, hbinaries, hmanifest⟩ := repoint_eq_published_iff.mp hrun
    obtain rfl := hbinaries.symm
    obtain rfl := hmanifest.symm
    have hcleanName := hclean.cleanName hread.docs_eq hnames
    have harchived := (archived_iff hcleanName).mpr ⟨hsome, hall⟩
    have hplain := (h docs versions hread).2 hne names hnames harchived
    have hfields := mem_fields_of_plain hclean hplain hread.docs_eq hnames
    refine .inr (.inr ⟨_, _, hpanic, ?_, stopSafe_staged⟩)
    exact repointed_of_same hread.stable (fun _ => slash_notMem_fields hcleanName) hall
      (fun arch => (hfields arch).1)
      (fun arch harch => (hfields arch).2 ((hfields arch).1.mp harch))

end Main

/-- The script keeps the channel coherent exactly when the manifest of `latest` does not read as
a target it does not serve, and its names are plain or an archived binary is missing. -/
theorem channelCoherent_iff (tools : CdnTools β) (jq : Jq) (host : Host β)
    (cast : Json.FloatCast) (cdn : CdnFiles β) (version : String)
    (hclean : CleanArches tools cdn) :
    ChannelCoherent tools jq host cast cdn version ↔ PanicSafe tools cdn version :=
  ⟨panicSafe_of_coherent hclean, coherent_of_panicSafe hclean⟩

end

/-! ### A channel with one archived binary -/

/-- A `jq` that reads the files that hold one text, and no others. -/
def sampleTools : CdnTools Nat where
  inputs
    | .json j => some [j]
    | _ => none
  inputs_json _ := rfl
  text _ := "null"
  isEmpty b := b = 0

/-- The manifest of `latest` serves `v1.1.0` for the architectures, and the archive of `v1.0.0`
has a binary for `x86`. -/
def sampleCdn (arches : List String) : CdnFiles Nat := fun key =>
  if key = "latest.json" then
    some (.json (.obj [("version", .str "v1.1.0"),
      ("checksums", .obj (arches.map fun arch => (arch, .str "sha256:00")))]))
  else if key = "binaries/v1.0.0/thinr-agent.x86" then some (.image 1)
  else none

/-- The target of the sample is a stable tag. A split of a text is not evaluated by `decide`, so the
steps are written out. -/
theorem isStableTag_sample : isStableTag "v1.0.0" = true := by
  have hlines : "v1.0.0".splitOn "\n" = ["v1.0.0"] := by
    rw [String.splitOn, if_neg (by decide)]
    iterate 6 rw [splitOnAux_next (by decide +kernel) (by decide +kernel)]
    rw [splitOnAux_atEnd (by decide +kernel)]
    decide +kernel
  rw [isStableTag, hlines]
  decide +kernel

/-- The manifest of the sample channel serves another version than the target. -/
theorem sampleCdn_latest (arches : List String) : sampleCdn arches "latest.json" =
    some (.json (.obj [("version", .str "v1.1.0"),
      ("checksums", .obj (arches.map fun arch => (arch, .str "sha256:00")))])) := if_pos rfl

/-- `jq` reads the sample manifest as one value, the object with its version and checksums. -/
theorem inputs_sampleCdn (arches : List String) :
    (sampleCdn arches "latest.json").bind sampleTools.inputs =
      some [.obj [("version", .str "v1.1.0"),
        ("checksums", .obj (arches.map fun arch => (arch, .str "sha256:00")))]] := by
  rw [sampleCdn_latest]
  rfl

/-- The sample channel has clean architectures when their names are clean. -/
theorem cleanArches_sample {arches : List String} (h : ∀ arch ∈ arches, CleanName arch) :
    CleanArches sampleTools (sampleCdn arches) := by
  intro docs hdocs doc hdoc kvs hfind entry hentry
  rw [inputs_sampleCdn] at hdocs
  cases hdocs
  rw [List.mem_singleton.mp hdoc] at hfind
  cases hfind
  obtain ⟨arch, harch, rfl⟩ := List.mem_map.mp hentry
  exact h arch harch

/-- What the script reads of the sample: the version that is served now. -/
theorem readsVersions_sample (arches : List String) : ReadsVersions sampleTools (sampleCdn arches)
    "v1.0.0" [.obj [("version", .str "v1.1.0"),
      ("checksums", .obj (arches.map fun arch => (arch, .str "sha256:00")))]] ["v1.1.0"] where
  stable := isStableTag_sample
  docs_eq := inputs_sampleCdn arches
  versions_eq := rfl

/-- With the architecture `x86` alone, which has a clean name and an archived binary, the channel
stays coherent. -/
theorem channelCoherent_iff_sample :
    ChannelCoherent sampleTools sampleJq digestHost .wrap (sampleCdn ["x86"]) "v1.0.0" := by
  have hname : CleanName "x86" := by decide +kernel
  have hclean : CleanArches sampleTools (sampleCdn ["x86"]) := cleanArches_sample (by simpa)
  refine (channelCoherent_iff sampleTools sampleJq digestHost .wrap _ _ hclean).mpr ?_
  intro docs versions hread
  constructor
  · -- The version in the file is another one.
    intro heq
    have hdocs := hread.docs_eq
    rw [inputs_sampleCdn] at hdocs
    cases hdocs
    have hversions := hread.versions_eq
    rw [(readsVersions_sample ["x86"]).versions_eq] at hversions
    cases hversions
    exact absurd heq (by decide +kernel)
  · intro _ names _ _
    refine ⟨_, _, sampleCdn_latest _, rfl, ?_⟩
    simp [PlainName]

/-- With the empty name beside it, the script completes, and the channel no longer serves that
architecture. -/
theorem not_channelCoherent_sample : CleanArches sampleTools (sampleCdn ["", "x86"]) ∧
    ¬ ChannelCoherent sampleTools sampleJq digestHost .wrap (sampleCdn ["", "x86"]) "v1.0.0" := by
  have hname : ∀ arch ∈ ["", "x86"], CleanName arch := by decide +kernel
  have hclean := cleanArches_sample hname
  refine ⟨hclean, fun h => ?_⟩
  have hsafe := (panicSafe_of_coherent hclean h _ _ (readsVersions_sample ["", "x86"])).2
    (by decide +kernel) _ rfl ?_
  · obtain ⟨j, kvs, hj, hfind, hplain⟩ := hsafe
    rw [sampleCdn_latest] at hj
    cases hj
    cases hfind
    exact (hplain ("", .str "sha256:00") (by simp)).1 rfl
  · constructor
    · exact ⟨"x86", by simp, by decide +kernel⟩
    · intro name hmem hne
      have hcases : name = "" ∨ name = "x86" := by simpa using hmem
      rcases hcases with rfl | rfl
      · exact absurd (by decide +kernel) hne
      · decide +kernel

end ThinrAgent
