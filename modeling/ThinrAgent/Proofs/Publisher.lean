import ThinrAgent.Proofs.ManifestSafety
import ThinrAgent.Scripts.Release

/-!
# `ThinrAgent.Proofs.Publisher`: the scripts and the parser of the manifest

The scripts accept any string of digits, bring it to a 64-bit integer and print it. The parser
accepts hours up to 8760 only, and a positive date. `agrees_iff` says for which digits the
parser reads the values that were given.

The digest of a binary passes through `sha256sum` and a pipe. It arrives as it is for a binary
that `sha256sum` can read, under a path that needs no mark (`Summed`). `lookup_checksumLoop_iff`
says that the digests come back exactly when all of them arrive so. `publisher_agrees` states both
for the runs of the scripts.
-/

set_option autoImplicit false

namespace ThinrAgent

open Shell

/-- The number that a string of digits denotes, without the bound of a machine integer. -/
def decimal (val : String) : Nat := val.toList.foldl (fun acc c => acc * 10 + digitValue c) 0

/-- The arithmetic of the shell keeps the number modulo `2 ^ 64`. -/
theorem normUint_eq (val : String) : normUint val = Int64.ofNat (decimal val) := by
  have hfold : ∀ (cs : List Char) (n : Nat),
      cs.foldl (fun acc c => acc * 10 + Int64.ofNat (digitValue c)) (Int64.ofNat n) =
        Int64.ofNat (cs.foldl (fun acc c => acc * 10 + digitValue c) n) := by
    intro cs
    induction cs with
    | nil => intro n; rfl
    | cons c cs ih =>
      intro n
      rw [List.foldl_cons, List.foldl_cons, ← ih, Int64.ofNat_add, Int64.ofNat_mul]
      rfl
  exact hfold val.toList 0

/-! ### The digests on their way through the pipe -/

/-- A digit of a digest: a decimal one, or one of the letters from `a` to `f`. -/
def isHexDigit (c : Char) : Bool := c.isDigit || ('a' ≤ c && c ≤ 'f')

/-- A digest in hex: one or more of its digits, and nothing else. -/
def IsHex (text : String) : Prop := text ≠ "" ∧ text.toList.all isHexDigit = true

/-- `sha256sum` prints the digest of the file at `path`, without a mark. -/
structure Summed (sum : Sha256sum) (path : String) (file : BinaryFile) : Prop where
  operand : isOption path = false
  readable : file.readable = true
  unmarked : sum.marks path = false

/-- The digest of the binary with a suffix, as `sha256sum` should print it. -/
def BinaryDir.digests (dir : BinaryDir) (suffix : String) : Option String :=
  (dir.files.lookup suffix).map BinaryFile.digest

section Digests
variable {sum : Sha256sum} {path dirPath suffix name : String} {file : BinaryFile}

/-- A binary that is summed without a mark has its digest in the manifest. -/
theorem thinrSha256_of_summed (h : Summed sum path file) :
    thinrSha256 sum path file = file.digest := by
  simp [thinrSha256, h.operand, h.readable, h.unmarked]

/-- What the script prints for another file is no digest: it is empty, or begins with the
mark. -/
theorem thinrSha256_ne (h : ¬ Summed sum path file) {digest : String} (hhex : IsHex digest) :
    thinrSha256 sum path file ≠ digest := by
  rintro rfl
  obtain ⟨hne, hall⟩ := hhex
  unfold thinrSha256 at hne hall
  split at hne
  · exact hne rfl
  · rename_i hread
    rw [if_neg hread] at hall
    split at hall
    · rw [String.toList_append, List.all_append, Bool.and_eq_true] at hall
      have hmark : ("\\".toList.all isHexDigit) = false := by decide
      rw [hmark] at hall
      cases hall.1
    · rename_i hmark
      simp only [Bool.or_eq_true, Bool.not_eq_true', not_or, Bool.not_eq_true,
        Bool.not_eq_false] at hread
      exact h ⟨hread.1, hread.2, by simpa using hmark⟩

/-- The suffix of a file comes out of its name, when that is one line. -/
theorem suffixOf_eq_self (hpath : isOption path = false) (hnul : '\x00' ∉ suffix.toList)
    (hnewline : '\n' ∉ suffix.toList) : suffixOf path ("thinr-agent." ++ suffix) = suffix := by
  have hname : ("thinr-agent." ++ suffix).toList = "thinr-agent.".toList ++ suffix.toList :=
    String.toList_append ..
  have hsplit : ("thinr-agent." ++ suffix).toList.splitOnP (· = '\n') =
      [("thinr-agent." ++ suffix).toList] := by
    refine List.splitOnP_eq_singleton fun c hc => ?_
    have hne : c ≠ '\n' := by
      rintro rfl
      rw [hname] at hc
      rcases List.mem_append.mp hc with hc | hc
      · revert hc
        decide
      · exact hnewline hc
    simpa using hne
  have hsed : sedLine ("thinr-agent.".toList ++ suffix.toList) = suffix.toList := by
    rw [sedLine, if_pos (List.isPrefixOf_iff_prefix.mpr (List.prefix_append _ _))]
    exact List.drop_left' (by decide)
  rw [suffixOf, hpath, if_neg Bool.false_ne_true, hsplit, List.map_singleton, hname, hsed,
    substitute_line hnul hnewline, String.ofList_toList]

/-- A file that is summed has its suffix for its key: a newline in the path is marked. -/
theorem Summed.suffixOf_eq (h : Summed sum (binaryPath dirPath suffix) file)
    (hnul : '\x00' ∉ suffix.toList) :
    suffixOf (binaryPath dirPath suffix) ("thinr-agent." ++ suffix) = suffix := by
  refine suffixOf_eq_self h.operand hnul fun hnewline => ?_
  have hmark := sum.newline (binaryPath dirPath suffix) (by simp [binaryPath, hnewline])
  rw [h.unmarked] at hmark
  cases hmark

/-- An entry of the object comes from a file, or was there before. -/
theorem mem_checksumLoop {files : List (String × BinaryFile)} {acc : Binaries} {key sha : String}
    (h : (key, sha) ∈ (checksumLoop sum dirPath files acc).files) :
    (key, sha) ∈ acc.files ∨ ∃ suffix file, (suffix, file) ∈ files ∧
      key = suffixOf (binaryPath dirPath suffix) ("thinr-agent." ++ suffix) ∧
      sha = thinrSha256 sum (binaryPath dirPath suffix) file := by
  induction files generalizing acc with
  | nil => exact .inl h
  | cons entry files ih =>
    obtain ⟨suffix, file⟩ := entry
    rcases ih h with hacc | ⟨suffix', file', hfile, hkey, hsha⟩
    · rcases List.mem_append.mp hacc with hacc | hacc
      · exact .inl (List.mem_of_mem_filter hacc)
      · rw [List.mem_singleton, Prod.mk.injEq] at hacc
        exact .inr ⟨suffix, file, List.mem_cons_self, hacc⟩
    · exact .inr ⟨suffix', file', List.mem_cons_of_mem _ hfile, hkey, hsha⟩

/-- With a key of its own for each file, the object has one entry for each. -/
theorem checksumLoop_files {files : List (String × BinaryFile)} {acc : Binaries}
    (hkeys : ∀ file ∈ files,
      suffixOf (binaryPath dirPath file.1) ("thinr-agent." ++ file.1) = file.1)
    (hnodup : (acc.files.map Prod.fst ++ files.map Prod.fst).Nodup) :
    (checksumLoop sum dirPath files acc).files =
      acc.files ++ files.map fun (suffix, file) =>
        (suffix, thinrSha256 sum (binaryPath dirPath suffix) file) := by
  induction files generalizing acc with
  | nil => simp [checksumLoop]
  | cons entry files ih =>
    obtain ⟨suffix, file⟩ := entry
    have hkey := hkeys _ List.mem_cons_self
    have hnew : suffix ∉ acc.files.map Prod.fst := by
      rw [List.nodup_append] at hnodup
      exact fun hmem => hnodup.2.2 suffix hmem suffix List.mem_cons_self rfl
    have hadd (sha : String) : (acc.add suffix sha).files = acc.files ++ [(suffix, sha)] := by
      refine congrArg (· ++ [(suffix, sha)]) (List.filter_eq_self.mpr fun entry hentry => ?_)
      have hne : entry.1 ≠ suffix := fun h => hnew (h ▸ List.mem_map_of_mem hentry)
      simpa using hne
    simp only at hkey
    rw [checksumLoop, hkey, ih (fun file hfile => hkeys file (List.mem_cons_of_mem _ hfile)), hadd]
    · simp
    · rw [hadd]
      simpa using hnodup

end Digests

/-- An entry of a list of pairs without repeated keys is found. -/
theorem lookup_of_mem {γ : Type} {entries : List (String × γ)} {key : String} {val : γ}
    (hnodup : (entries.map Prod.fst).Nodup) (h : (key, val) ∈ entries) :
    entries.lookup key = some val := by
  induction entries with
  | nil => cases h
  | cons entry entries ih =>
    obtain ⟨key', val'⟩ := entry
    rw [List.map_cons, List.nodup_cons] at hnodup
    rw [List.lookup_cons]
    by_cases heq : key = key'
    · subst heq
      rcases List.mem_cons.mp h with h | h
      · rw [beq_self_eq_true, (Prod.mk.inj h).2]
      · exact absurd (List.mem_map_of_mem (f := Prod.fst) h) hnodup.1
    · rw [beq_false_of_ne heq]
      rcases List.mem_cons.mp h with h | h
      · exact absurd (Prod.mk.inj h).1 heq
      · exact ih hnodup.2 h

/-- The digests of a directory are the ones its files have, exactly when every file is summed. -/
theorem lookup_checksumLoop_iff {sum : Sha256sum} {dirPath : String} {dir : BinaryDir}
    (hhex : ∀ file ∈ dir.files, IsHex file.2.digest) :
    (∀ arch, (checksumLoop sum dirPath dir.files ⟨[], List.nodup_nil⟩).files.lookup arch =
        dir.digests arch) ↔
      ∀ file ∈ dir.files, Summed sum (binaryPath dirPath file.1) file.2 := by
  constructor
  · rintro h ⟨suffix, file⟩ hfile
    by_contra hnot
    -- Whatever file has set the entry of this suffix, it is not summed either.
    have hentry := h suffix
    rw [BinaryDir.digests, lookup_of_mem dir.nodup hfile] at hentry
    obtain ⟨before, after, hsplit, -⟩ := List.lookup_eq_some_iff.mp hentry
    have hmem : (suffix, file.digest) ∈
        (checksumLoop sum dirPath dir.files ⟨[], List.nodup_nil⟩).files := by
      rw [hsplit]
      simp
    rcases mem_checksumLoop hmem with hmem | ⟨other, file', hother, hkey, hsha⟩
    · cases hmem
    · refine thinrSha256_ne (fun hsummed => ?_) (hhex _ hfile) hsha.symm
      rw [hsummed.suffixOf_eq (dir.names _ hother)] at hkey
      subst hkey
      have hsame := (lookup_of_mem dir.nodup hfile).symm.trans (lookup_of_mem dir.nodup hother)
      cases hsame
      exact hnot hsummed
  · intro h arch
    have hkeys : ∀ file ∈ dir.files,
        suffixOf (binaryPath dirPath file.1) ("thinr-agent." ++ file.1) = file.1 :=
      fun file hfile => (h file hfile).suffixOf_eq (dir.names file hfile)
    rw [checksumLoop_files hkeys (by simpa using dir.nodup), List.nil_append]
    have hdigests : ∀ files : List (String × BinaryFile), (∀ file ∈ files, file ∈ dir.files) →
        (files.map fun (suffix, file) =>
          (suffix, thinrSha256 sum (binaryPath dirPath suffix) file)).lookup arch =
          (files.lookup arch).map BinaryFile.digest := by
      intro files hfiles
      induction files with
      | nil => rfl
      | cons entry files ih =>
        obtain ⟨suffix, file⟩ := entry
        rw [List.map_cons, List.lookup_cons, List.lookup_cons,
          ih fun file hfile => hfiles file (List.mem_cons_of_mem _ hfile),
          thinrSha256_of_summed (h _ (hfiles _ List.mem_cons_self))]
        split
        · rfl
        · rfl
    exact hdigests dir.files fun _ h => h

/-! ### The numbers -/

/-- The parser reads `text` as a valid staged manifest with the given version, numbers and
digests. -/
structure Agrees (cast : Json.FloatCast) (text : Json) (version : String)
    (digests : String → Option String) (publishedAt soakH rampH : Nat) : Prop where
  valid : (Manifest.parse cast (some text)).valid = true
  version_eq : (Manifest.parse cast (some text)).version = version
  hasStaging : (Manifest.parse cast (some text)).hasStaging = true
  notInvalid : (Manifest.parse cast (some text)).stagingInvalid = false
  published_eq : (Manifest.parse cast (some text)).publishedAt.toInt = publishedAt
  soak_eq : (Manifest.parse cast (some text)).soakH = soakH
  ramp_eq : (Manifest.parse cast (some text)).rampH = rampH
  checksum_eq : ∀ arch, (Manifest.parse cast (some text)).checksumFor arch =
    (digests arch).map ("sha256:" ++ ·)

section Text
variable {cast : Json.FloatCast} {jq : Jq} {version : String} {binaries : Binaries}
  {digests : String → Option String}

/-- The digests come back from the object of the checksums. -/
theorem checksums_lookup (files : List (String × String)) (arch : String) :
    ((files.map fun (suffix, sha) => (suffix, Json.str ("sha256:" ++ sha))).filterMap
      Manifest.checksumEntry).lookup arch = (files.lookup arch).map ("sha256:" ++ ·) := by
  induction files with
  | nil => rfl
  | cons file files ih =>
    rw [List.map_cons, List.filterMap_cons, Manifest.checksumEntry, List.lookup_cons,
      List.lookup_cons]
    split
    · rfl
    · exact ih

/-- The staging block of a published text: it is the three numbers as `jq` prints them, where they
pass the consumer's check. -/
theorem block_manifestText_iff {pub : Json} {p s r : Rat} {publishedAt soakH rampH : Int} :
    Manifest.Block (manifestText jq version binaries publishedAt soakH rampH) pub p s r ↔
      pub = .int (jq.print publishedAt) ∧ p = jq.print publishedAt ∧ s = jq.print soakH ∧
        r = jq.print rampH ∧ Manifest.StagingOk p s r := by
  constructor
  · intro h
    have hpub : pub = .int (jq.print publishedAt) := by
      simpa [manifestText, Json.find, List.lookup_cons] using h.published.symm
    have hp := h.publishedNumber
    have hs := h.soak
    have hr := h.ramp
    rw [hpub] at hp
    simp only [manifestText, Json.find, List.lookup_cons, String.reduceBEq, Option.bind_some,
      Json.number, Option.some.injEq] at hp hs hr
    exact ⟨hpub, hp.symm, hs.symm, hr.symm, h.ok⟩
  · rintro ⟨rfl, rfl, rfl, rfl, hok⟩
    exact ⟨rfl, rfl, rfl, rfl, hok⟩

/-- The parser reads back a published text exactly when the three numbers are printed as they
are and are in the documented ranges, and the digests are the ones given. -/
theorem agrees_iff {publishedAt soakH rampH : Int} {p s r : Nat} (hversion : version ≠ "")
    (hp : publishedAt = (Int64.ofNat p).toInt) (hs : soakH = (Int64.ofNat s).toInt)
    (hr : rampH = (Int64.ofNat r).toInt) :
    Agrees cast (manifestText jq version binaries publishedAt soakH rampH) version digests
        p s r ↔
      (s ≤ 8760 ∧ r ≤ 8760 ∧ 0 < p ∧ p < 2 ^ 63 ∧ jq.print p = p) ∧
        ∀ arch, binaries.files.lookup arch = digests arch := by
  -- An hour in range reaches `jq` as it is, and is printed as it is.
  have hhour {h : Nat} (hle : h ≤ 8760) : jq.print (Int64.ofNat h).toInt = h := by
    rw [Int64.toInt_ofNat_of_lt (by omega)]
    exact jq.exact h (by omega) (by omega)
  obtain ⟨hver, hsums, hvalid⟩ := Manifest.parse_plain cast
    (j := manifestText jq version binaries publishedAt soakH rampH) rfl
  have hchecksum (arch : String) : (Manifest.parse cast (some (manifestText jq version binaries
      publishedAt soakH rampH))).checksumFor arch =
        (binaries.files.lookup arch).map ("sha256:" ++ ·) := by
    rw [Manifest.checksumFor, hsums]
    exact checksums_lookup binaries.files arch
  constructor
  · intro h
    have hdigests (arch : String) : binaries.files.lookup arch = digests arch :=
      Option.map_injective (fun _ _ heq => String.append_right_inj _ |>.mp heq)
        ((hchecksum arch).symm.trans (h.checksum_eq arch))
    rcases Manifest.parse_cases cast (j := manifestText jq version binaries publishedAt soakH rampH)
      rfl with ⟨pub, q, s', r', hb, -, -, hpub, hsoak, hramp⟩ | ⟨-, hno, -⟩ | ⟨-, hno, -⟩
    · obtain ⟨rfl, hq, -, -, hok⟩ := block_manifestText_iff.mp hb
      have hs8760 := hok.2.1.2
      have hr8760 := hok.2.2.2
      rw [← hsoak, h.soak_eq] at hs8760
      rw [← hramp, h.ramp_eq] at hr8760
      have hpos : 0 < jq.print publishedAt := by
        have := hok.1
        rw [hq] at this
        exact_mod_cast this
      have hkept := h.published_eq
      rw [hpub] at hkept
      have hsize : (Int64.ofInt (jq.print publishedAt)).toInt = p := hkept
      have hp63 : p < 2 ^ 63 := by
        have := Int64.toInt_lt (Int64.ofInt (jq.print publishedAt))
        omega
      rw [Int64.toInt_ofNat_of_lt hp63] at hp
      -- The print is a positive 64-bit number, so only one below `2 ^ 63` reads as `p`.
      have hprint : jq.print publishedAt = p := by
        have hlt := jq.lt publishedAt (by omega)
        rw [Int64.toInt_ofInt, show Int64.size = 2 ^ 64 from rfl] at hsize
        by_cases hsmall : jq.print publishedAt < 2 ^ 63
        · rwa [Int.bmod_eq_of_le (by omega) (by omega)] at hsize
        · rw [Int.bmod_eq_self_sub_mul_bdiv, Int.bdiv] at hsize
          omega
      refine ⟨⟨by exact_mod_cast hs8760, by exact_mod_cast hr8760, by omega, hp63, ?_⟩, hdigests⟩
      rwa [hp] at hprint
    · rw [h.hasStaging] at hno
      cases hno
    · rw [h.hasStaging] at hno
      cases hno
  · rintro ⟨⟨hs8760, hr8760, hpos, hp63, hprint⟩, hdigests⟩
    have hpub : jq.print publishedAt = p := by
      rw [hp, Int64.toInt_ofNat_of_lt hp63]
      exact hprint
    have hb : Manifest.Block (manifestText jq version binaries publishedAt soakH rampH)
        (.int (jq.print publishedAt)) p s r := by
      refine block_manifestText_iff.mpr ⟨rfl, ?_, ?_, ?_, ?_⟩
      · rw [hpub]
        rfl
      · rw [hs, hhour hs8760]
        rfl
      · rw [hr, hhour hr8760]
        rfl
      · exact ⟨by exact_mod_cast hpos, ⟨by positivity, by exact_mod_cast hs8760⟩, by positivity,
          by exact_mod_cast hr8760⟩
    obtain ⟨hstaging, hinv, hpublished, hsoak, hramp⟩ := Manifest.parse_block cast rfl hb
    refine ⟨by rw [hvalid]; exact decide_eq_true hversion, hver, hstaging, hinv, ?_, hsoak, hramp,
      fun arch => ?_⟩
    · rw [hpublished, hpub]
      exact Int64.toInt_ofInt_of_le (by omega) (by exact_mod_cast hp63)
    · rw [hchecksum, hdigests]

/-- The numbers `panic.sh` publishes are read back, and so the digests decide. -/
theorem agrees_repointed_iff (hversion : version ≠ "") :
    Agrees cast (manifestText jq version binaries 1 0 0) version digests 1 0 0 ↔
      ∀ arch, binaries.files.lookup arch = digests arch := by
  have hprint : jq.print (1 : Nat) = (1 : Nat) := jq.exact 1 (by omega) (by omega)
  rw [agrees_iff hversion (p := 1) (s := 0) (r := 0) (by decide) (by decide) (by decide)]
  exact and_iff_right ⟨by omega, by omega, by omega, by omega, hprint⟩

/-- What `panic.sh` publishes is read back, with the digests as they were printed. -/
theorem agrees_repointed (hversion : version ≠ "") :
    Agrees cast (manifestText jq version binaries 1 0 0) version
      (fun arch => binaries.files.lookup arch) 1 0 0 :=
  (agrees_repointed_iff hversion).mpr fun _ => rfl

end Text

section Scripts
variable {jq : Jq} {env : GenEnv} {args : List String} {a : GenArgs} {dir : BinaryDir}
  {text : Json}

/-- The object of the checksums, when it is built, is the result of the loop. -/
theorem thinrChecksumsJson_eq {sum : Sha256sum} {dirPath : String}
    {files : List (String × BinaryFile)} {checksums : Binaries}
    (h : thinrChecksumsJson sum dirPath files = some checksums) :
    checksums = checksumLoop sum dirPath files ⟨[], List.nodup_nil⟩ := by
  unfold thinrChecksumsJson at h
  split at h
  · cases h
  · cases h
    rfl

/-- What a run of `gen-manifest.sh` that wrote a manifest has checked, and what it wrote. -/
theorem genManifest_wrote (ha : parseGenArgs args {} = .run a)
    (hdir : env.listing a.binariesDir = some dir)
    (h : genManifest jq env args = .success (some text)) :
    a.version ≠ "" ∧ text = manifestText jq a.version
      (checksumLoop env.sum a.binariesDir dir.files ⟨[], List.nodup_nil⟩)
      (normUint (a.published env)).toInt (normUint a.soakH).toInt (normUint a.rampH).toInt := by
  unfold genManifest at h
  rw [ha] at h
  simp only [hdir] at h
  -- Every check of the script has to be passed, and the last step writes.
  split at h
  · cases h
  · split at h
    · cases h
    · split at h
      · cases h
      · rename_i hnone
        split at h
        · cases h
        · split at h
          · cases h
          · rename_i checksums hchecksums
            split at h
            · cases h
            · injection h with h
              injection h with h
              rw [thinrChecksumsJson_eq hchecksums] at h
              refine ⟨fun hempty => hnone ?_, h.symm⟩
              simp [hempty]

/-- What a run of `panic.sh` that wrote a manifest has checked, and what it wrote. -/
theorem panicScript_wrote {cdn : Cdn} {version : String}
    (h : panicScript jq cdn version = .success (some text)) :
    isStableTag version = true ∧ ∃ latest, cdn.latest = some latest ∧
      text = manifestText jq version (checksumLoop cdn.sum cdn.stage
        (cdn.stagedDir version latest).files ⟨[], List.nodup_nil⟩) 1 0 0 := by
  unfold panicScript at h
  -- Every check of the script has to be passed, and the last step writes.
  split at h
  · cases h
  · rename_i htag
    split at h
    · cases h
    · rename_i latest hlatest
      split at h
      · cases h
      · split at h
        · cases h
        · split at h
          · cases h
          · split at h
            · cases h
            · rename_i checksums hchecksums
              injection h with h
              injection h with h
              rw [thinrChecksumsJson_eq hchecksums] at h
              exact ⟨by simpa using htag, latest, hlatest, h.symm⟩

/-- A stable tag is not empty, as it begins with a `v`. -/
theorem ne_empty_of_isStableTag {version : String} (h : isStableTag version = true) :
    version ≠ "" := by
  rintro rfl
  simp [isStableTag] at h

end Scripts

/-- The scripts and the parser, for digests in hex. What `gen-manifest.sh` writes is read back as
it was given exactly for hours up to 8760, a positive date below `2 ^ 63` that `jq` prints as it
is, and binaries that `sha256sum` reads under paths it does not mark. What `panic.sh` writes is
read back exactly for such binaries in its staging directory. A pair of hours that
`--check-params` accepts is good for every manifest exactly up to 8760. -/
theorem publisher_agrees (cast : Json.FloatCast) (jq : Jq) :
    (∀ env args a dir text, parseGenArgs args {} = .run a →
      env.listing a.binariesDir = some dir →
      (∀ file ∈ dir.files, IsHex file.2.digest) →
      genManifest jq env args = .success (some text) →
      (Agrees cast text a.version dir.digests (decimal (a.published env)) (decimal a.soakH)
          (decimal a.rampH) ↔
        (decimal a.soakH ≤ 8760 ∧ decimal a.rampH ≤ 8760 ∧ 0 < decimal (a.published env) ∧
          decimal (a.published env) < 2 ^ 63 ∧
          jq.print (decimal (a.published env)) = decimal (a.published env)) ∧
        ∀ file ∈ dir.files, Summed env.sum (binaryPath a.binariesDir file.1) file.2)) ∧
    (∀ cdn version text, panicScript jq cdn version = .success (some text) →
      ∃ latest, cdn.latest = some latest ∧
        ((∀ file ∈ (cdn.stagedDir version latest).files, IsHex file.2.digest) →
          (Agrees cast text version (cdn.stagedDir version latest).digests 1 0 0 ↔
            ∀ file ∈ (cdn.stagedDir version latest).files,
              Summed cdn.sum (binaryPath cdn.stage file.1) file.2))) ∧
    (∀ env args a, parseGenArgs args {} = .run a → a.checkParams = true →
      genManifest jq env args = .success none →
      ((∀ version sum dirPath (dir : BinaryDir) published, version ≠ "" →
          (∀ file ∈ dir.files, IsHex file.2.digest) →
          (∀ file ∈ dir.files, Summed sum (binaryPath dirPath file.1) file.2) →
          0 < decimal published → decimal published ≤ 2 ^ 53 →
          Agrees cast (manifestText jq version
            (checksumLoop sum dirPath dir.files ⟨[], List.nodup_nil⟩)
            (normUint published).toInt (normUint a.soakH).toInt (normUint a.rampH).toInt) version
            dir.digests (decimal published) (decimal a.soakH) (decimal a.rampH)) ↔
        decimal a.soakH ≤ 8760 ∧ decimal a.rampH ≤ 8760)) := by
  have hnorm (val : String) : (normUint val).toInt = (Int64.ofNat (decimal val)).toInt :=
    congrArg Int64.toInt (normUint_eq val)
  refine ⟨?_, ?_, ?_⟩
  · intro env args a dir text ha hdir hhex h
    obtain ⟨hversion, rfl⟩ := genManifest_wrote ha hdir h
    rw [agrees_iff hversion (hnorm _) (hnorm _) (hnorm _), lookup_checksumLoop_iff hhex]
  · intro cdn version text h
    obtain ⟨htag, latest, hlatest, rfl⟩ := panicScript_wrote h
    refine ⟨latest, hlatest, fun hhex => ?_⟩
    rw [agrees_repointed_iff (ne_empty_of_isStableTag htag), lookup_checksumLoop_iff hhex]
  · intro env args a _ _ _
    constructor
    · intro h
      -- Any date that `jq` prints as it is will do, and a directory without a binary.
      have h1 := (agrees_iff (p := decimal "1") (by decide) (hnorm _) (hnorm _) (hnorm _)).mp
        (h "v1.8.0" .classic "bin" ⟨[], List.nodup_nil, by simp⟩ "1" (by decide) (by simp)
          (by simp) (by decide) (by decide))
      exact ⟨h1.1.1, h1.1.2.1⟩
    · rintro ⟨hs, hr⟩ version sum dirPath dir published hversion hhex hsummed hpos hle
      exact (agrees_iff hversion (hnorm _) (hnorm _) (hnorm _)).mpr
        ⟨⟨hs, hr, hpos, by omega, jq.exact _ (by omega) (by exact_mod_cast hle)⟩,
          (lookup_checksumLoop_iff hhex).mpr hsummed⟩

/-- A `jq` that prints every integer as it is. -/
def sampleJq : Jq := ⟨id, fun _ _ _ => rfl, fun z h => by simp only [id]; omega⟩

/-- A directory with one binary, which can be read or not. -/
def sampleDir (readable : Bool) : BinaryDir where
  files := [("x86_64-linux-musl", { digest := "abc", readable })]
  nodup := by simp
  names := by
    intro file hfile
    rw [List.mem_singleton.mp hfile]
    exact show '\x00' ∉ "x86_64-linux-musl".toList by decide

/-- The directory under the name `bin`, at a clock in 2025, with the usual `sha256sum`. -/
def sampleEnv (readable : Bool) : GenEnv where
  listing path := if path = "bin" then some (sampleDir readable) else none
  date := "1762000000"
  sum := .classic
  writable _ := true

/-- A command line with a soak, for the sample directory. -/
def sampleArgs (soakH : String) : List String :=
  ["--binaries-dir", "bin", "--version", "v1.8.0", "--out", "latest.json", "--soak-h", soakH]

/-- The digest of the sample is one in hex. -/
theorem isHex_sampleDir (readable : Bool) :
    ∀ file ∈ (sampleDir readable).files, IsHex file.2.digest := by
  intro file hfile
  rw [List.mem_singleton.mp hfile]
  exact show IsHex "abc" from ⟨by decide, by decide⟩

/-- A soak of 24 hours, and binaries that are summed as they are. -/
theorem publisher_agrees_sample : ∃ text,
    genManifest sampleJq (sampleEnv true) (sampleArgs "24") = .success (some text) ∧
      Agrees .wrap text "v1.8.0" (sampleDir true).digests 1762000000 24 96 := by
  refine ⟨_, rfl, ((publisher_agrees .wrap sampleJq).1 (sampleEnv true) (sampleArgs "24") _ _ _
    rfl rfl (isHex_sampleDir true) rfl).mpr
      ⟨⟨by decide, by decide, by decide, by decide, rfl⟩, fun file hfile => ?_⟩⟩
  rw [List.mem_singleton.mp hfile]
  exact ⟨by decide, rfl, by decide⟩

/-- A soak of 8761 hours passes the validation of the script, and the parser marks the manifest
as invalid. A binary that cannot be read passes too, and is published without a digest. -/
theorem not_agrees_sample :
    (∃ text, genManifest sampleJq (sampleEnv true) (sampleArgs "8761") = .success (some text) ∧
      (Manifest.parse .wrap (some text)).stagingInvalid = true ∧
      ¬ Agrees .wrap text "v1.8.0" (sampleDir true).digests 1762000000 8761 96) ∧
    ∃ text, genManifest sampleJq (sampleEnv false) (sampleArgs "24") = .success (some text) ∧
      (Manifest.parse .wrap (some text)).checksumFor "x86_64-linux-musl" = some "sha256:" ∧
      ¬ Agrees .wrap text "v1.8.0" (sampleDir false).digests 1762000000 24 96 := by
  refine ⟨⟨_, rfl, ?_, fun h => ?_⟩, ⟨_, rfl, ?_, fun h => ?_⟩⟩
  · decide +kernel
  · have := h.notInvalid
    revert this
    decide +kernel
  · decide +kernel
  · have := h.checksum_eq "x86_64-linux-musl"
    revert this
    decide +kernel

end ThinrAgent
