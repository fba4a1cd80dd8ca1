import ThinrAgent.Effects.Rules
import ThinrAgent.Proofs.Checksum
import ThinrAgent.Proofs.Panic
import ThinrAgent.Proofs.Rollout
import ThinrAgent.Scripts.Channel

/-!
# `ThinrAgent.Proofs.Channel`: every manifest describes binaries of its own version

Publications, freezes, unfreezes and panics may write to the bucket at a time, each of them may be
stopped anywhere, and any of their transfers may fail. `SoundObject` says what
an object is at all times, and it is enough that each run keeps to it:

- a manifest has a version, and each of its checksums is the digest of a binary that a job has built
  for this version and architecture (`Truthful`);
- what is archived under a stable tag was built for this tag;
- `latest.json` is a manifest.

The runs obey `bucketRules`: an object that is fetched is sound, and one that is stored has to
be. A publication stores the manifest of its own binaries. A freeze stores the manifest it has
fetched, which another run may have replaced since, with the same version and checksums. A panic
takes the binaries from the archive of the target, so they were built for it.

`bucket_sound` is the result for the bucket. `installs_built` is the one for a device that reads a
manifest at any moment, and the binary at another.
-/

set_option autoImplicit false

namespace ThinrAgent

open Effects Shell

section
variable {β : Type}

/-! ### What the objects are -/

/-- The checksums of a manifest are the digests of binaries that were built for its version. -/
structure Truthful (host : Host β) (built : String → String → β → Prop) (j : Json) : Prop where
  versioned : ∃ version, j.find "version" = some (.str version)
  digests : ∀ version arch checksum, j.find "version" = some (.str version) →
    Carries (some j) arch checksum →
    ∃ b, built version arch b ∧ checksum = "sha256:" ++ digestField host arch (.image b)
  names : ∀ names, archNames j = some names → ∀ name ∈ names, '/' ∉ name.toList

/-- What an object of the bucket is: a manifest tells the truth about the binaries, an archived file
is a binary that was built, and `latest.json` is a manifest. -/
structure SoundObject (host : Host β) (built : String → String → β → Prop) (key : String)
    (content : Content β) : Prop where
  manifest : ∀ j, content = .json j → Truthful host built j
  archived : ∀ version arch, isStableTag version = true → key = archiveKey version arch →
    ∃ b, content = .image b ∧ built version arch b
  latest : key = "latest.json" → ∃ j, content = .json j

/-- Every object of the bucket is sound, whatever its key. -/
def SoundBucket (host : Host β) (built : String → String → β → Prop) (cdn : CdnFiles β) : Prop :=
  ∀ key content, cdn key = some content → SoundObject host built key content

/-- A run may rely on sound objects, and stores no others. -/
def bucketRules (host : Host β) (built : String → String → β → Prop) : Rules (bucket β) where
  may
    | .upload key content => SoundObject host built key content
    | .sync key content => SoundObject host built key content
    | _ => True
  can
    | .fetch key, found => ∀ content, found = some content → SoundObject host built key content
    | _, _ => True

/-- One of the runs has a job that built the binary for the version and the architecture. -/
def BuiltBy {ι : Type} (runs : ι → BucketRun β) (version arch : String) (b : β) : Prop :=
  ∃ i job transfers, runs i = .publish job transfers ∧ job.embedVersion = version ∧
    (arch, b) ∈ job.artifacts

/-! ### Keys -/

/-- The key of a binary in an archive names the archive and the architecture. -/
theorem archiveKey_inj {version arch channel suffix : String}
    (h : archiveKey version arch = archiveKey channel suffix) (hchannel : '/' ∉ channel.toList)
    (hsuffix : '/' ∉ suffix.toList) : version = channel ∧ arch = suffix := by
  have hlist : version.toList ++ '/' :: ("thinr-agent.".toList ++ arch.toList) =
      channel.toList ++ '/' :: ("thinr-agent.".toList ++ suffix.toList) := by
    have hkey := congrArg String.toList h
    simpa [archiveKey] using hkey
  have hname (a : String) : '/' ∉ "thinr-agent.".toList ++ a.toList ↔ '/' ∉ a.toList := by simp
  -- There is one slash on the right.
  have hcount := congrArg (List.count '/') hlist
  rw [List.count_append, List.count_append, List.count_cons_self, List.count_cons_self,
    List.count_eq_zero_of_not_mem hchannel,
    List.count_eq_zero_of_not_mem ((hname suffix).mpr hsuffix)] at hcount
  have harch : '/' ∉ "thinr-agent.".toList ++ arch.toList := List.count_eq_zero.mp (by omega)
  have hversion := eq_of_append_slash hlist harch ((hname suffix).mpr hsuffix)
  rw [hversion, List.append_cancel_left_eq, List.cons.injEq, List.append_cancel_left_eq] at hlist
  exact ⟨String.toList_injective hversion, String.toList_injective hlist.2⟩

/-- The archives are under `binaries/`, so a key that begins with another letter is none of
theirs. -/
theorem ne_archiveKey {key : String} (h : key.toList.head? ≠ some 'b') (version arch : String) :
    key ≠ archiveKey version arch := by
  rintro rfl
  refine h ?_
  simp [archiveKey]

section Sound
variable {host : Host β} {built : String → String → β → Prop} {key channel suffix : String}

/-- A text that is no manifest is sound under every key that is neither an archive's nor
`latest.json`. -/
theorem SoundObject.of_raw {text : String} (hkey : key.toList.head? ≠ some 'b')
    (hlatest : key ≠ "latest.json") : SoundObject host built key (.raw text) where
  manifest := fun j h => by cases h
  archived := fun version arch _ h => absurd h (ne_archiveKey hkey version arch)
  latest := fun h => absurd h hlatest

/-- A truthful manifest is sound under every key that is not one of a binary, for which the first
letter is enough. -/
theorem SoundObject.of_json {j : Json} (hkey : key.toList.head? ≠ some 'b')
    (hj : Truthful host built j) : SoundObject host built key (.json j) where
  manifest := fun j' h => by
    cases h
    exact hj
  archived := fun version arch _ h => absurd h (ne_archiveKey hkey version arch)
  latest := fun _ => ⟨j, rfl⟩

/-- A binary in the archive of its version, or of a channel that is no stable tag. -/
theorem SoundObject.of_image {b : β} (hchannel : '/' ∉ channel.toList)
    (hsuffix : '/' ∉ suffix.toList)
    (hb : isStableTag channel = true → built channel suffix b) :
    SoundObject host built (archiveKey channel suffix) (.image b) where
  manifest := fun j h => by cases h
  archived := by
    intro version arch hstable h
    obtain ⟨rfl, rfl⟩ := archiveKey_inj h.symm hchannel hsuffix
    exact ⟨b, rfl, hb hstable⟩
  latest := fun h => absurd h (archiveKey_ne_manifest _ _)

/-- What the machine does keeps the bucket sound, and gives sound objects. -/
theorem sound_exec {cdn : CdnFiles β} (hcdn : SoundBucket host built cdn) {o : BucketOp β}
    (ho : (bucketRules host built).may o) (c : BucketChoice) :
    (bucketRules host built).can o (bucketMachine.exec cdn o c).1 ∧
      SoundBucket host built (bucketMachine.exec cdn o c).2 := by
  -- An upload may be stored or lost, and what is stored is sound.
  have hstore : ∀ key content, SoundObject host built key content →
      SoundBucket host built (if c.stored then cdn.bind key content else cdn) := by
    intro key content hcontent
    split
    · intro key' content' h
      by_cases heq : key' = key
      · subst heq
        rw [Registry.bind_self] at h
        cases h
        exact hcontent
      · rw [Registry.bind_of_ne _ _ heq] at h
        exact hcdn key' content' h
    · exact hcdn
  cases o with
  | fetch key =>
    refine ⟨fun content h => ?_, hcdn⟩
    have h : (if c.reported then cdn key else none) = some content := h
    split at h
    · exact hcdn key content h
    · cases h
  | upload key content => exact ⟨trivial, hstore key content ho⟩
  | sync key content => exact ⟨trivial, hstore key content ho⟩
  | date => exact ⟨trivial, hcdn⟩

/-! ### Uploads -/

/-- A run may upload a sound object, and it need not know whether the upload has worked. -/
theorem obeys_uploadFile {content : Content β} (h : SoundObject host built key content) :
    (bucketRules host built).Obeys (uploadFile key content) fun _ => True := by
  refine ⟨h, fun (done : Bool) _ => ?_⟩
  cases done with
  | true => trivial
  | false => trivial

/-- A run may transfer sound files, in any order and whichever of the transfers fail. -/
theorem obeys_syncAll {files : List (String × Content β)}
    (h : ∀ file ∈ files, SoundObject host built file.1 file.2) :
    (bucketRules host built).Obeys (syncAll files) fun _ => True := by
  induction files with
  | nil => trivial
  | cons file files ih =>
    have hrest := ih fun file' hfile => h file' (List.mem_cons_of_mem _ hfile)
    exact ⟨h file List.mem_cons_self, fun _ _ => hrest.bind fun _ _ => trivial⟩

/-- The same for `aws s3 sync`, whose order is its own. -/
theorem obeys_syncDir (transfers : Transfers β) {files : List (String × Content β)}
    (h : ∀ file ∈ files, SoundObject host built file.1 file.2) :
    (bucketRules host built).Obeys (syncDir transfers files) fun _ => True := by
  refine (obeys_syncAll fun file hfile => ?_).bind fun done _ => ?_
  · exact h file ((transfers.perm files).mem_iff.mp hfile)
  · cases done with
    | true => trivial
    | false => trivial

/-! ### Manifests -/

/-- A manifest of binaries that were built for its version. -/
theorem truthful_manifestText (jq : Jq) {version : String} {binaries : Binaries}
    (hdigests : ∀ arch sha, (arch, sha) ∈ binaries.files →
      '/' ∉ arch.toList ∧ ∃ b, built version arch b ∧ sha = digestField host arch (.image b))
    (publishedAt soakH rampH : Int) :
    Truthful host built (manifestText jq version binaries publishedAt soakH rampH) := by
  have hfind : (manifestText jq version binaries publishedAt soakH rampH).find "checksums" =
      some (checksumsJson binaries) := by
    simp [manifestText, Json.find, List.lookup_cons]
  refine ⟨⟨version, rfl⟩, ?_, ?_⟩
  · intro version' arch checksum hversion hcarries
    cases hversion
    obtain ⟨j, checksums, hj, hchecksums, hentry⟩ := hcarries
    cases hj
    rw [hfind] at hchecksums
    cases hchecksums
    -- A checksum that is found in the text is the digest of one of the binaries.
    obtain ⟨before, after, hsplit, -⟩ := List.lookup_eq_some_iff.mp hentry
    have hmem : (arch, Json.str checksum) ∈ before ++ (arch, Json.str checksum) :: after :=
      List.mem_append_right _ List.mem_cons_self
    rw [← hsplit] at hmem
    obtain ⟨⟨suffix, sha⟩, hfile, heq⟩ := List.mem_map.mp hmem
    cases heq
    obtain ⟨-, b, hb, rfl⟩ := hdigests arch sha hfile
    exact ⟨b, hb, rfl⟩
  · intro names hnames name hname
    rw [archNames, hfind] at hnames
    cases hnames
    rw [List.mem_mergeSort, List.map_map] at hname
    obtain ⟨⟨arch, sha⟩, hfile, harch⟩ := List.mem_map.mp hname
    exact harch ▸ (hdigests arch sha hfile).1

/-- A manifest stays truthful when only its field `frozen_at` changes. -/
theorem Truthful.of_find {j j' : Json} (hj : Truthful host built j)
    (hfind : ∀ key, key ≠ "frozen_at" → j'.find key = j.find key) : Truthful host built j' where
  versioned := by
    rw [hfind _ (by decide)]
    exact hj.versioned
  digests := by
    intro version arch checksum hversion hcarries
    rw [hfind _ (by decide)] at hversion
    obtain ⟨_, checksums, ⟨⟩, hchecksums, hentry⟩ := hcarries
    rw [hfind _ (by decide)] at hchecksums
    exact hj.digests version arch checksum hversion ⟨j, checksums, rfl, hchecksums, hentry⟩
  names := by
    intro names hnames
    rw [archNames, hfind _ (by decide)] at hnames
    exact hj.names names hnames

/-- Unfreezing leaves every entry but the time of the freeze. -/
theorem find_unfreezeText {j : Json} {key : String} (hkey : key ≠ "frozen_at") :
    (unfreezeText j).find key = j.find key := by
  cases j with
  | obj kvs =>
    show (kvs.filter _).lookup key = kvs.lookup key
    induction kvs with
    | nil => rfl
    | cons entry kvs ih =>
      obtain ⟨name, val⟩ := entry
      by_cases hname : name = "frozen_at"
      · rw [List.filter_cons_of_neg (by simpa using hname), ih, List.lookup_cons,
          beq_false_of_ne (hname ▸ hkey)]
      · rw [List.filter_cons_of_pos (by simpa using hname), List.lookup_cons, List.lookup_cons, ih]
  | _ => rfl

/-! ### The scripts -/

section Scripts
variable {tools : CdnTools β} {jq : Jq}

/-- A script whose first operation is allowed obeys the rules when it goes on so with every
answer. -/
theorem obeys_askBucket {α : Type} {o : BucketOp β} {k : o.Res → BucketM β α} {Q : α → Prop}
    (ho : (bucketRules host built).may o)
    (hk : ∀ r, (bucketRules host built).can o r → (bucketRules host built).Obeys (k r) Q) :
    (bucketRules host built).Obeys (askBucket o >>= k) Q :=
  ⟨ho, hk⟩

/-- What a script reads from `latest.json` is one truthful manifest, where the bucket is sound. -/
theorem docs_of_sound {found : Option (Content β)} {docs : List Json}
    (hfound : ∀ content, found = some content → SoundObject host built "latest.json" content)
    (hdocs : found.bind tools.inputs = some docs) : ∃ j, docs = [j] ∧ Truthful host built j := by
  obtain ⟨content, hcontent, hinputs⟩ := Option.bind_eq_some_iff.mp hdocs
  obtain ⟨j, rfl⟩ := (hfound content hcontent).latest rfl
  rw [tools.inputs_json] at hinputs
  cases hinputs
  exact ⟨j, rfl, (hfound _ hcontent).manifest j rfl⟩

/-- A freeze or an unfreeze stores the manifest it has fetched, with the same version and the same
checksums. What it has fetched is sound, so what it stores is. -/
theorem obeys_freezeScript (freeze : Bool) :
    (bucketRules host built).Obeys (freezeScript tools jq freeze) fun _ => True := by
  unfold freezeScript
  refine obeys_askBucket (o := .fetch "latest.json") trivial
    fun (found : Option (Content β)) hfound => ?_
  split
  · next docs hdocs =>
    obtain ⟨j, rfl, hj⟩ := docs_of_sound hfound hdocs
    -- Both actions change `frozen_at` alone, so one fact serves the two uploads.
    have hput : ∀ j', (∀ key, key ≠ "frozen_at" → j'.find key = j.find key) →
        (bucketRules host built).Obeys (uploadFile "latest.json" (jqFile tools [j']))
          fun _ => True := by
      intro j' hfind
      exact obeys_uploadFile (.of_json (by decide) (hj.of_find hfind))
    unfold freezeDocs
    split
    · split
      · split
        · trivial
        · exact ⟨trivial, fun now _ => hput _ fun key hkey => Manifest.find_freezeText _ hkey⟩
      · split
        · exact hput _ fun key hkey => find_unfreezeText hkey
        · trivial
    · trivial
  · trivial

/-- What is staged for a stable target was built for it. -/
theorem obeys_fetchArchived {version : String} (hstable : isStableTag version = true)
    (arches : List String) :
    (bucketRules host built).Obeys (fetchArchived tools version arches) fun result =>
      ∀ staged, result = some staged → ∀ file ∈ staged.files,
        file.1 ∈ arches ∧ ∃ b, file.2 = .image b ∧ built version file.1 b := by
  -- An object that is read from the archive of a stable version was built for it.
  induction arches with
  | nil =>
    intro staged h file hfile
    cases h
    cases hfile
  | cons arch arches ih =>
    unfold fetchArchived
    refine obeys_askBucket (o := .fetch (archiveKey version arch)) trivial
      fun (found : Option (Content β)) hfound => ?_
    refine ih.bind fun others hothers => ?_
    split
    · next content staged hcontent =>
      intro staged' h file hfile
      cases h
      rw [Option.filter_eq_some_iff] at hcontent
      rw [Staged.add] at hfile
      split at hfile
      · obtain ⟨hmem, hb⟩ := hothers staged rfl file hfile
        exact ⟨List.mem_cons_of_mem _ hmem, hb⟩
      · rcases List.mem_cons.mp hfile with rfl | hfile
        · exact ⟨List.mem_cons_self, (hfound content hcontent.1).archived version arch hstable rfl⟩
        · obtain ⟨hmem, hb⟩ := hothers staged rfl file hfile
          exact ⟨List.mem_cons_of_mem _ hmem, hb⟩
    · intro staged h
      cases h

/-- The part of a panic that publishes: the staged binaries were built for the target, so they may
go under `latest`, and so may a manifest with their digests. -/
theorem obeys_repointRun {version arches : String} (transfers : Transfers β)
    (hstable : isStableTag version = true)
    (harches : ∀ arch ∈ fields arches, '/' ∉ arch.toList) :
    (bucketRules host built).Obeys (repointRun tools jq host transfers version arches)
      fun _ => True := by
  refine .ite (fun _ => trivial) fun _ => ?_
  refine (obeys_fetchArchived hstable (fields arches)).bind fun result hresult => ?_
  cases result with
  | none => trivial
  | some staged =>
    have hstaged := hresult staged rfl
    refine .ite (fun _ => trivial) fun _ => ?_
    refine (obeys_syncDir transfers fun file hfile => ?_).bind fun _ _ => obeys_uploadFile ?_
    · obtain ⟨⟨arch, content⟩, hmem, rfl⟩ := List.mem_map.mp hfile
      obtain ⟨harch, b, rfl, -⟩ := hstaged _ hmem
      exact .of_image (by decide) (harches arch harch) fun h =>
        absurd rfl (ne_latest_of_isStableTag h)
    · refine .of_json (by decide) (truthful_manifestText jq (fun arch sha hfile => ?_) _ _ _)
      obtain ⟨⟨arch, content⟩, hmem, heq⟩ := List.mem_map.mp hfile
      cases heq
      obtain ⟨harch, b, rfl, hb⟩ := hstaged _ hmem
      exact ⟨harches arch harch, b, hb, rfl⟩

/-- A panic keeps to the rules. Whatever manifest it reads, its names have no slash, so the files it
fetches are those of the archive of the target. -/
theorem obeys_panicRun (version : String) (transfers : Transfers β) :
    (bucketRules host built).Obeys (panicRun tools jq host transfers version) fun _ => True := by
  unfold panicRun
  refine .ite (fun hstable => ?_) fun _ => trivial
  refine obeys_askBucket (o := .fetch "latest.json") trivial
    fun (found : Option (Content β)) hfound => ?_
  split
  · trivial
  · next docs hdocs =>
    obtain ⟨j, rfl, hj⟩ := docs_of_sound hfound hdocs
    split
    · trivial
    · refine .ite (fun _ => trivial) fun _ => ?_
      split
      · trivial
      · next names hnames =>
        refine obeys_repointRun transfers hstable fun arch harch hslash => ?_
        -- A slash in a field is one of a name.
        rcases exists_name_of_mem_fields harch hslash with h | ⟨name, hname, hmem⟩
        · cases h
        · obtain ⟨names', hnames', hmem'⟩ := List.mem_flatten.mp hname
          cases harchs : archNames j with
          | none =>
            rw [List.mapM_cons, harchs] at hnames
            cases hnames
          | some arches =>
            rw [List.mapM_cons, harchs] at hnames
            cases hnames
            rw [List.mem_singleton.mp hnames'] at hmem'
            exact hj.names arches harchs name hmem' hmem

end Scripts

end Sound

/-! ### Publications -/

/-- A text with a prefix is the prefix and what `${text#start}` leaves of it. -/
theorem append_dropStart {start text : String} (h : startsWith start text = true) :
    text = start ++ dropStart start text := by
  obtain ⟨rest, hrest⟩ := List.isPrefixOf_iff_prefix.mp h
  refine String.toList_injective ?_
  rw [String.toList_append, dropStart, if_pos h, String.toList_ofList, ← hrest,
    ← String.length_toList, List.drop_left]

/-- A tag that starts the workflow begins with v and has no slash. -/
theorem tagFilter_cases {name : String} (h : tagFilter name = true) :
    name.toList.head? = some 'v' ∧ '/' ∉ name.toList := by
  unfold tagFilter at h
  split at h
  · next cs hcs =>
    rw [Bool.and_eq_true] at h
    rw [hcs]
    refine ⟨rfl, fun hslash => ?_⟩
    rcases List.mem_cons.mp hslash with hslash | hslash
    · cases hslash
    · simp [hslash] at h
  · cases h

/-- How a push that starts the workflow is classified: by its tag, which is the version of the
binaries, or by its branch, which is not released. -/
structure Classifies (job : PublishJob β) (c : Classified) : Prop where
  channel : c.channel = job.embedVersion ∧ tagFilter c.channel = true ∨
    c.isRelease = false ∧ (c.channel = "main" ∨ c.channel = "develop")
  script : c.installScript ∈ ["", "install.sh", "install-main.sh", "install-develop.sh"]
  plain : '\\' ∉ c.channel.toList ∧ '\n' ∉ c.channel.toList

/-- The class of a ref, with what the proofs about a publication need of it: the channel, and
whether the version of the binaries is its name. -/
theorem classifies (job : PublishJob β) {c : Classified} (h : classify job.ref = some c) :
    Classifies job c := by
  have htriggered := job.triggered
  rw [triggers, Bool.or_eq_true, Bool.or_eq_true, Bool.and_eq_true, decide_eq_true_eq,
    decide_eq_true_eq] at htriggered
  rcases htriggered with (hmain | hdevelop) | ⟨hstart, htag⟩
  · have hc : classify "refs/heads/main" = some ⟨"main", false, false, "install-main.sh"⟩ := by
      decide +kernel
    rw [hmain, hc] at h
    cases h
    exact ⟨.inr ⟨rfl, .inl rfl⟩, by decide, by decide⟩
  · have hc : classify "refs/heads/develop" =
        some ⟨"develop", false, false, "install-develop.sh"⟩ := by
      decide +kernel
    rw [hdevelop, hc] at h
    cases h
    exact ⟨.inr ⟨rfl, .inr rfl⟩, by decide, by decide⟩
  · have hv := (tagFilter_cases htag).1
    have hembed : job.embedVersion = dropStart "refs/tags/" job.ref := if_pos hstart
    -- The name of the tag does not start with `refs/heads/`.
    have hname : dropStart "refs/heads/" (dropStart "refs/tags/" job.ref) = job.embedVersion := by
      rw [hembed, dropStart, if_neg]
      cases hlist : (dropStart "refs/tags/" job.ref).toList with
      | nil =>
        rw [hlist] at hv
        cases hv
      | cons d ds =>
        rw [hlist] at hv
        cases hv
        rw [startsWith, hlist]
        exact Bool.false_ne_true
    have href : job.ref = "refs/tags/" ++ job.embedVersion := by
      rw [hembed]
      exact append_dropStart hstart
    have htag : tagFilter job.embedVersion = true := hembed ▸ htag
    have hplain {d : Char} (h : d ∉ job.ref.toList) : d ∉ job.embedVersion.toList := by
      rw [href, String.toList_append] at h
      exact fun hd => h (List.mem_append_right _ hd)
    have hplain := And.intro (hplain job.refName.1) (hplain job.refName.2)
    unfold classify at h
    rw [hname, if_pos (.inl href)] at h
    split at h
    · cases h
      exact ⟨.inl ⟨rfl, htag⟩, .tail _ (.head _), hplain⟩
    · cases h
      exact ⟨.inl ⟨rfl, htag⟩, .head _, hplain⟩

/-- The branch `main` is no stable tag, so what it publishes is archived under no version. -/
theorem not_isStableTag_main : isStableTag "main" = false := by
  have hlines : "main".splitOn "\n" = ["main"] := by
    rw [String.splitOn, if_neg (by decide)]
    iterate 4 rw [splitOnAux_next (by decide +kernel) (by decide +kernel)]
    rw [splitOnAux_atEnd (by decide +kernel)]
    decide +kernel
  rw [isStableTag, hlines]
  decide +kernel

/-- The branch `develop` is no stable tag either. -/
theorem not_isStableTag_develop : isStableTag "develop" = false := by
  have hlines : "develop".splitOn "\n" = ["develop"] := by
    rw [String.splitOn, if_neg (by decide)]
    iterate 7 rw [splitOnAux_next (by decide +kernel) (by decide +kernel)]
    rw [splitOnAux_atEnd (by decide +kernel)]
    decide +kernel
  rw [isStableTag, hlines]
  decide +kernel

section Publish
variable {host : Host β} {built : String → String → β → Prop} {job : PublishJob β}
  {c : Classified}

/-- The channel has no slash, its manifest is outside of the archives, and it is the version of the
job when it is a stable tag. -/
theorem Classifies.channel_cases (h : Classifies job c) :
    '/' ∉ c.channel.toList ∧ (c.channel ++ ".json").toList.head? ≠ some 'b' ∧
      (isStableTag c.channel = true → c.channel = job.embedVersion) := by
  rcases h.channel with ⟨hembed, htag⟩ | ⟨-, hbranch | hbranch⟩
  · obtain ⟨hv, hslash⟩ := tagFilter_cases htag
    refine ⟨hslash, ?_, fun _ => hembed⟩
    rw [String.toList_append, List.head?_append, hv]
    decide
  · rw [hbranch]
    exact ⟨by decide, by decide, fun hstable => by simp [not_isStableTag_main] at hstable⟩
  · rw [hbranch]
    exact ⟨by decide, by decide, fun hstable => by simp [not_isStableTag_develop] at hstable⟩

/-- The binaries of a job go to the archive of their version, to the one of their branch, or to
`latest`. -/
theorem sound_binaries (h : Classifies job c)
    (hbuilt : ∀ suffix b, (suffix, b) ∈ job.artifacts → built job.embedVersion suffix b) :
    ∀ file ∈ job.binaries c, SoundObject host built file.1 file.2 := by
  obtain ⟨hslash, -, hstable⟩ := h.channel_cases
  have hfiles : ∀ channel, '/' ∉ channel.toList →
      (isStableTag channel = true → channel = job.embedVersion) →
      ∀ file ∈ job.files channel, SoundObject host built file.1 file.2 := by
    intro channel hslash hstable file hfile
    obtain ⟨⟨suffix, b⟩, hmem, rfl⟩ := List.mem_map.mp hfile
    exact .of_image hslash (job.names _ hmem).1 fun htag => hstable htag ▸ hbuilt suffix b hmem
  intro file hfile
  rcases List.mem_append.mp hfile with hfile | hfile
  · exact hfiles c.channel hslash hstable file hfile
  · split at hfile
    · exact hfiles "latest" (by decide) (fun h => absurd rfl (ne_latest_of_isStableTag h)) file
        hfile
    · cases hfile

/-- The manifest of a job has the digests of its binaries. -/
theorem truthful_genManifest (jq : Jq) (hc : Classifies job c)
    (hbuilt : ∀ suffix b, (suffix, b) ∈ job.artifacts → built job.embedVersion suffix b)
    {now : Nat} {manifest : Json}
    (h : genManifest jq (job.genEnv host c now) (job.genArgs c) = .success (some manifest)) :
    Truthful host built manifest := by
  obtain ⟨-, rfl⟩ := genManifest_wrote (a := {
      binariesDir := "binaries/" ++ c.channel, version := job.embedVersion
      soakH := (job.rollout c).1, rampH := (job.rollout c).2, out := c.channel ++ ".json" })
    rfl (if_pos rfl) h
  refine truthful_manifestText jq (fun arch sha hfile => ?_) _ _ _
  -- Neither the directory nor a name brings a newline, so each file has its suffix for its key.
  obtain ⟨hback, hnewline⟩ := hc.plain
  have hoption : isOption ("binaries/" ++ c.channel) = false := by simp [isOption]
  rcases mem_checksumLoop hfile with hnone | ⟨suffix, file, hentry, rfl, rfl⟩
  · cases hnone
  obtain ⟨⟨suffix, b⟩, hmem, heq⟩ := List.mem_map.mp hentry
  cases heq
  obtain ⟨hslash, hnul, hline⟩ := job.names _ hmem
  have hkey : suffixOf (binaryPath ("binaries/" ++ c.channel) suffix) ("thinr-agent." ++ suffix) =
      suffix := suffixOf_eq_self ((isOption_binaryPath _ _).trans hoption) hnul hline
  refine ⟨by rwa [hkey], b, by rw [hkey]; exact hbuilt _ b hmem, ?_⟩
  rw [hkey]
  exact thinrSha256_classic hoption (by simpa using hback) (by simpa using hnewline) hline _

/-- A publication may upload its install script, whose key is neither one of a binary nor the
manifest. -/
theorem obeys_uploadScript (h : Classifies job c) :
    (bucketRules host built).Obeys (job.uploadScript c) fun _ => True := by
  refine .ite (fun hscript => obeys_uploadFile ?_) fun _ => trivial
  have hcases := h.script
  simp only [List.mem_cons, List.not_mem_nil, or_false, hscript, false_or] at hcases
  rcases hcases with h | h | h
  · exact h ▸ .of_raw (by decide) (by decide)
  · exact h ▸ .of_raw (by decide) (by decide)
  · exact h ▸ .of_raw (by decide) (by decide)

/-- The manifest of a publication has the version of the binaries and their digests, so it may be
stored. -/
theorem obeys_uploadManifest (jq : Jq) (h : Classifies job c)
    (hbuilt : ∀ suffix b, (suffix, b) ∈ job.artifacts → built job.embedVersion suffix b)
    (now : Nat) : (bucketRules host built).Obeys (job.uploadManifest jq host c now)
      fun _ => True := by
  unfold PublishJob.uploadManifest
  split
  · next manifest hmanifest =>
    have htruthful : Truthful host built manifest := truthful_genManifest jq h hbuilt hmanifest
    refine (obeys_uploadFile (.of_json h.channel_cases.2.1 htruthful)).bind fun _ _ => ?_
    exact .ite (fun _ => obeys_uploadFile (.of_json (by decide) htruthful)) fun _ => trivial
  · trivial

/-- A publication keeps to the rules: its binaries go under its channel, and under `latest` for a
release, and its manifest describes them. -/
theorem obeys_publish (jq : Jq) (transfers : Transfers β)
    (hbuilt : ∀ suffix b, (suffix, b) ∈ job.artifacts → built job.embedVersion suffix b) :
    (bucketRules host built).Obeys (job.program jq host transfers) fun _ => True := by
  unfold PublishJob.program
  split
  · trivial
  · next c hc =>
    have h := classifies job hc
    refine .ite (fun _ => ?_) fun _ => trivial
    refine (obeys_syncDir transfers (sound_binaries h hbuilt)).bind fun _ _ => ?_
    refine (obeys_uploadScript h).bind fun _ _ => ?_
    exact ⟨trivial, fun now _ => obeys_uploadManifest jq h hbuilt now⟩

end Publish

/-! ### All runs -/

section Runs
variable {ι : Type} {tools : CdnTools β} {jq : Jq} {host : Host β} {runs : ι → BucketRun β}

/-- Every run of the pool keeps to the rules, where a binary counts as built when a job of the pool
has built it. -/
theorem obeys_program (i : ι) :
    (bucketRules host (BuiltBy runs)).Obeys ((runs i).program tools jq host) fun _ => True := by
  cases hrun : runs i with
  | publish job transfers =>
    exact obeys_publish jq transfers fun suffix b hmem => ⟨i, job, transfers, hrun, rfl, hmem⟩
  | freeze => exact obeys_freezeScript true
  | unfreeze => exact obeys_freezeScript false
  | panic version transfers => exact obeys_panicRun version transfers

variable [DecidableEq ι]

/-- Any number of publications, freezes, unfreezes and panics, in any order of their steps, each
stopped anywhere and with transfers that fail, leave a bucket in which every manifest has the
digests of binaries that were built for its version, and every archive of a stable tag has binaries
that were built for the tag. -/
theorem bucket_sound (tools : CdnTools β) (jq : Jq) (host : Host β) (runs : ι → BucketRun β)
    {cdn : CdnFiles β} (hcdn : SoundBucket host (BuiltBy runs) cdn)
    (schedule : List (ι × BucketChoice)) :
    SoundBucket host (BuiltBy runs) (bucketAfter tools jq host runs cdn schedule) :=
  Pool.run_rules (R := bucketRules host (BuiltBy runs)) (Q := fun _ => True)
    (fun _ _ _ c hw ho => sound_exec hw ho c) schedule obeys_program hcdn

end Runs

/-! ### Devices -/

/-- A device reads a manifest that any object of the bucket has held, and it downloads its binary
then or later. With a checksum for its architecture in the manifest, `install_path` holds at every
moment what it held before, or bytes with the digest of a binary that was built for the version of
the manifest and for the architecture, and a downloaded file is executed only with that digest. It
does not matter which publications, freezes, unfreezes and panics were under way, which of them were
stopped or have failed, and what the binary was downloaded from. -/
theorem installs_built {ι : Type} [DecidableEq ι] (tools : CdnTools β) (jq : Jq) (host : Host β)
    (runs : ι → BucketRun β) {cdn : CdnFiles β} (hcdn : SoundBucket host (BuiltBy runs) cdn)
    (schedule : List (ι × BucketChoice)) {key : String} {j : Json}
    (hkey : bucketAfter tools jq host runs cdn schedule key = some (.json j))
    (build : Build) (cast : Json.FloatCast) (f : Fractions) (user : User) (library : Exc → String)
    {A : SysOp β → Choice β → Prop} {w : World β} {L : Layout} (hserves : Serves A (some j))
    (hexe : w.proc.binaryPath = L.path .install) {checksum : String}
    (hcarries : Carries (some j) build.binarySuffix checksum)
    (hsuffix : '\\' ∉ build.binarySuffix.toList)
    (hsha : ∀ content : Content β, host.sha256 content ≠ "") :
    ∃ version b, j.find "version" = some (.str version) ∧
      BuiltBy runs version build.binarySuffix b ∧
      (∀ p : UpdatePoller, p.stateDir = L.stateDir →
        Verifies host A L ("sha256:" ++ host.sha256 (.image b))
          (p.runCycle host build cast f user) (fun r => r.1 = .restarting) w) ∧
      ((∀ stateDir, defaultStateDir user = .ok stateDir → stateDir = L.stateDir) →
        ∀ act channel origin,
          Verifies host A L ("sha256:" ++ host.sha256 (.image b))
            (run host build user library act channel origin)
            (fun r => r.status = "updated") w) := by
  have htruthful := (bucket_sound tools jq host runs hcdn schedule key _ hkey).manifest j rfl
  obtain ⟨version, hversion⟩ := htruthful.versioned
  obtain ⟨b, hb, hchecksum⟩ := htruthful.digests version _ checksum hversion hcarries
  rw [digestField, if_neg hsuffix] at hchecksum
  subst hchecksum
  -- The digest has digits, so the checksum is not the bare name of the algorithm.
  have hlength : ("sha256:" ++ host.sha256 (.image b)).length =
      "sha256:".length + (host.sha256 (.image b)).length := String.length_append ..
  have hpositive : (host.sha256 (.image b)).length ≠ 0 := by
    simpa using hsha (.image b)
  have hne : "sha256:" ++ host.sha256 (.image b) ≠ "" := by
    intro h
    rw [h, String.length_empty] at hlength
    omega
  have hbare : "sha256:" ++ host.sha256 (.image b) = "sha256:" →
      ∀ file, ¬ CanFail A (.read file) := by
    intro h
    rw [h] at hlength
    omega
  refine ⟨version, b, hversion, hb, fun p hp => ?_, fun hdir act channel origin => ?_⟩
  · exact verifies_runCycle hserves hcarries hne hbare hp hexe
  · exact verifies_run hserves hcarries hne hbare hdir hexe

/-! ### A sample -/

/-- The push of a stable tag, with one binary for one architecture. -/
def sampleJob : PublishJob Nat where
  ref := "refs/tags/v1.0.0"
  triggered := by decide +kernel
  refName := by decide
  describe := ""
  artifacts := [("linux", 2)]
  nodup := List.nodup_singleton _
  names := by
    intro artifact h
    rw [List.mem_singleton.mp h]
    decide

/-- The job of the tag, and a freeze beside it. `freezes` says which of the two a thread runs. -/
def sampleRuns (freezes : Bool) : BucketRun Nat :=
  if freezes then .freeze else .publish sampleJob ⟨id, fun _ => List.Perm.refl _⟩

/-- The manifest that the job publishes, without a rollout. -/
def jobManifest : Json :=
  .obj [("version", .str "v1.0.0"), ("checksums", .obj [("linux", .str "sha256:00")])]

/-- The manifest after a freeze at the time 5. -/
def frozenManifest : Json := freezeText 5 jobManifest

/-- A bucket with the manifest of the job and nothing else. -/
def sampleBucket : CdnFiles Nat := fun key =>
  if key = "latest.json" then some (.json jobManifest) else none

/-- The environment of a device that gets the frozen manifest whenever it gets a body at all. -/
def ServesFrozen (_ : SysOp Nat) (c : Choice Nat) : Prop :=
  ∀ body, c.httpGet? = .response 200 body → body = some frozenManifest

/-- The sample bucket is sound: what it holds is the release of its one job. -/
theorem sound_sampleBucket : SoundBucket digestHost (BuiltBy sampleRuns) sampleBucket := by
  intro key content h
  rw [sampleBucket] at h
  split at h
  · next hkey =>
    cases h
    refine hkey ▸ .of_json (by decide) ⟨⟨_, rfl⟩, ?_, ?_⟩
    · intro version arch checksum hversion hcarries
      cases hversion
      obtain ⟨j, checksums, hj, hchecksums, hentry⟩ := hcarries
      cases hj
      cases hchecksums
      -- The manifest carries a checksum for one architecture only.
      have harch : arch = "linux" := by
        by_contra harch
        rw [Json.find, List.lookup_cons, beq_false_of_ne harch] at hentry
        cases hentry
      subst harch
      cases hentry
      refine ⟨2, ⟨false, sampleJob, _, rfl, by decide +kernel, List.mem_cons_self⟩, rfl⟩
    · intro names hnames name hname
      cases hnames
      have hname : name ∈ ["linux"].mergeSort := hname
      rw [List.mem_mergeSort, List.mem_singleton] at hname
      rw [hname]
      decide
  · cases h

/-- The bucket is sound at the start, and a freeze fetches the manifest, asks for the date and
stores it. An update from what the bucket holds then installs the binary of the job. -/
theorem installs_built_sample : ∃ b, Verifies digestHost ServesFrozen Layout.system
    ("sha256:" ++ digestHost.sha256 (.image b))
    (run digestHost sampleBuild sampleRoot (fun _ => "") .apply "latest" .cli)
    (fun r => r.status = "updated") sampleWorld := by
  have hlatest : bucketAfter sampleTools sampleJq digestHost sampleRuns sampleBucket
      [(true, {}), (true, { now := 5 }), (true, {})] "latest.json" =
        some (.json frozenManifest) := rfl
  obtain ⟨_, b, _, _, _, hrun⟩ := installs_built sampleTools sampleJq digestHost sampleRuns
    sound_sampleBucket _ hlatest sampleBuild .wrap (deviceFraction fun _ => []) sampleRoot
    (fun _ => "") (A := ServesFrozen) (w := sampleWorld) (L := Layout.system)
    (fun _ _ body hc hget => hc body hget) rfl ⟨_, _, rfl, rfl, rfl⟩ (by decide)
    (fun _ => show ("00" : String) ≠ "" by decide)
  exact ⟨b, hrun (fun stateDir h => by cases h; decide) _ _ _⟩

end

end ThinrAgent
