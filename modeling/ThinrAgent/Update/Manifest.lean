import ThinrAgent.Std.Json

/-!
# `ThinrAgent.Update.Manifest`: the channel manifest and the staged rollout

`Manifest.parse` and `evaluateEligibility` (`update/manifest.{hpp,cpp}`). The `double` and
`long double` values of the source are rationals, computed with exactly. A device's fraction
comes from a digest the library computes: `Fractions` is any assignment of fractions below one,
and `deviceFraction` the one the agent uses.
-/

set_option autoImplicit false

namespace ThinrAgent

/-- The manifest of a channel, as `manifest::parse` reads it. -/
structure Manifest where
  version : String := ""
  checksums : List (String × String) := []
  valid : Bool := false           -- has a nonempty version
  hasStaging : Bool := false      -- all three staging fields present and valid
  stagingInvalid : Bool := false  -- staging fields present but malformed or partial
  publishedAt : Int64 := 0
  soakH : Rat := 0
  rampH : Rat := 0
  hasFrozen : Bool := false
  frozenAt : Int64 := 0

namespace Manifest

/-- The version of a manifest's text, empty when it is missing or not a string. -/
def versionIn (j : Json) : String :=
  match j.find "version" with
  | some (.str v) => v
  | _ => ""

/-- An entry of the checksums whose value is a string. Entries with another value are dropped. -/
def checksumEntry : String × Json → Option (String × String)
  | (arch, .str value) => some (arch, value)
  | _ => none

/-- The checksums of a manifest's text: the entries that are strings. -/
def checksumsIn (j : Json) : List (String × String) :=
  match j.find "checksums" with
  | some (.obj entries) => entries.filterMap checksumEntry
  | _ => []

/-- The ranges the three staging numbers have to be in. -/
def StagingOk (pub soak ramp : Rat) : Prop :=
  0 < pub ∧ (0 ≤ soak ∧ soak ≤ 8760) ∧ 0 ≤ ramp ∧ ramp ≤ 8760

instance (pub soak ramp : Rat) : Decidable (StagingOk pub soak ramp) := by
  unfold StagingOk
  infer_instance

/-- The staging block: all three present and valid, or none. -/
def withStaging (cast : Json.FloatCast) (j : Json) (m : Manifest) : Manifest :=
  match j.find "published_at", j.find "soak_h", j.find "ramp_h" with
  | some pub, some soak, some ramp =>
    match pub.number, soak.number, ramp.number with
    | some p, some s, some r =>
      if StagingOk p s r then
        { m with hasStaging := true, publishedAt := pub.toInt64 cast, soakH := s, rampH := r }
      else { m with stagingInvalid := true }
    | _, _, _ => { m with stagingInvalid := true }
  | none, none, none => m
  | _, _, _ => { m with stagingInvalid := true }  -- partial block

/-- The time of a freeze is added when it is a positive number. -/
def withFrozen (cast : Json.FloatCast) (j : Json) (m : Manifest) : Manifest :=
  match j.find "frozen_at" with
  | some entry =>
    match entry.number with
    | some q => if 0 < q then { m with hasFrozen := true, frozenAt := entry.toInt64 cast } else m
    | none => m
  | none => m

/-- The staging block of a text is present and valid: its entry for the publication, and the
three numbers. -/
structure Block (j pub : Json) (p s r : Rat) : Prop where
  published : j.find "published_at" = some pub
  publishedNumber : pub.number = some p
  soak : (j.find "soak_h").bind Json.number = some s
  ramp : (j.find "ramp_h").bind Json.number = some r
  ok : StagingOk p s r

/-- Some field of the staging block is present. -/
def AnyPresent (j : Json) : Prop :=
  j.contains "published_at" = true ∨ j.contains "soak_h" = true ∨ j.contains "ramp_h" = true

/-- `manifest::parse`. A text that is no JSON object gives the default manifest. -/
def parse (cast : Json.FloatCast) (text : Option Json) : Manifest :=
  match text with
  | none => {}
  | some j =>
    if j.isObject then
      withFrozen cast j (withStaging cast j
        { version := versionIn j, checksums := checksumsIn j, valid := versionIn j ≠ "" })
    else {}

section Parse
variable {cast : Json.FloatCast} {j pub : Json} {m : Manifest} {p s r : Rat}

/-- What the staging block of a text does to a manifest: an accepted block is stored, no block
leaves the manifest as it is, and anything else marks it. -/
theorem withStaging_cases (cast : Json.FloatCast) (j : Json) (m : Manifest) :
    (∃ pub p s r, Block j pub p s r ∧ withStaging cast j m =
        { m with hasStaging := true, publishedAt := pub.toInt64 cast, soakH := s, rampH := r }) ∨
      (¬ AnyPresent j ∧ withStaging cast j m = m) ∨
      ((∀ pub p s r, ¬ Block j pub p s r) ∧
        withStaging cast j m = { m with stagingInvalid := true }) := by
  unfold withStaging AnyPresent Json.contains
  -- All three fields are there, none is, or some are.
  split
  · rename_i pub soak ramp hpub hsoak hramp
    split
    · rename_i p s r hp hs hr
      split
      · refine .inl ⟨pub, p, s, r, ⟨hpub, hp, ?_, ?_, ‹_›⟩, rfl⟩
        · simpa [hsoak] using hs
        · simpa [hramp] using hr
      · refine .inr (.inr ⟨fun pub' p' s' r' hb => ?_, rfl⟩)
        -- A block would have the same three numbers.
        have hp' := hb.publishedNumber
        have hs' := hb.soak
        have hr' := hb.ramp
        rw [show pub' = pub by simpa [hpub] using hb.published.symm, hp] at hp'
        simp only [hsoak, hramp, Option.bind_some, hs, hr, Option.some.injEq] at hp' hs' hr'
        subst hp' hs' hr'
        exact absurd hb.ok ‹_›
    · rename_i hno
      refine .inr (.inr ⟨fun pub' p' s' r' hb => hno p' s' r' ?_ ?_ ?_, rfl⟩)
      · rw [← show pub' = pub by simpa [hpub] using hb.published.symm]
        exact hb.publishedNumber
      · simpa [hsoak] using hb.soak
      · simpa [hramp] using hb.ramp
  · rename_i hpub hsoak hramp
    exact .inr (.inl ⟨by simp [hpub, hsoak, hramp], rfl⟩)
  · rename_i hsome _
    refine .inr (.inr ⟨fun pub p s r hb => ?_, rfl⟩)
    obtain ⟨soak, hsoak, -⟩ := Option.bind_eq_some_iff.mp hb.soak
    obtain ⟨ramp, hramp, -⟩ := Option.bind_eq_some_iff.mp hb.ramp
    exact hsome pub soak ramp hb.published hsoak hramp

/-- The text has at most one staging block. -/
theorem Block.unique {pub' : Json} {p' s' r' : Rat} (h : Block j pub p s r)
    (h' : Block j pub' p' s' r') : pub' = pub ∧ p' = p ∧ s' = s ∧ r' = r := by
  have hpub : pub' = pub := by simpa [h.published] using h'.published.symm
  subst hpub
  refine ⟨rfl, ?_, ?_, ?_⟩
  · simpa [h.publishedNumber] using h'.publishedNumber.symm
  · simpa [h.soak] using h'.soak.symm
  · simpa [h.ramp] using h'.ramp.symm

/-- A complete staging block has one of the fields. -/
theorem Block.anyPresent (h : Block j pub p s r) : AnyPresent j :=
  .inl (by simp [Json.contains, h.published])

/-- An accepted staging block is stored in the manifest with its own numbers. -/
theorem Block.withStaging_eq (h : Block j pub p s r) (cast : Json.FloatCast) (m : Manifest) :
    withStaging cast j m =
      { m with hasStaging := true, publishedAt := pub.toInt64 cast, soakH := s, rampH := r } := by
  rcases withStaging_cases cast j m with ⟨pub', p', s', r', h', heq⟩ | ⟨hno, -⟩ | ⟨hno, -⟩
  · obtain ⟨rfl, rfl, rfl, rfl⟩ := h.unique h'
    exact heq
  · exact absurd h.anyPresent hno
  · exact absurd h (hno pub p s r)

/-- The block of the freeze only sets its own two fields. -/
theorem withFrozen_eq (cast : Json.FloatCast) (j : Json) (m : Manifest) :
    withFrozen cast j m = { m with hasFrozen := (withFrozen cast j m).hasFrozen,
                                   frozenAt := (withFrozen cast j m).frozenAt } := by
  unfold withFrozen
  split
  · split
    · split <;> rfl
    · rfl
  · rfl

/-- The fields of a parsed manifest that do not come from its staging block or its freeze. -/
def plain (j : Json) : Manifest :=
  { version := versionIn j, checksums := checksumsIn j, valid := versionIn j ≠ "" }

/-- The fields of an object are read one group after the other. -/
theorem parse_object (cast : Json.FloatCast) (hobj : j.isObject = true) :
    parse cast (some j) = withFrozen cast j (withStaging cast j (plain j)) := if_pos hobj

/-- What the parser makes of the staging block. -/
theorem parse_cases (cast : Json.FloatCast) (hobj : j.isObject = true) :
    (∃ pub p s r, Block j pub p s r ∧ (parse cast (some j)).hasStaging = true ∧
        (parse cast (some j)).stagingInvalid = false ∧
        (parse cast (some j)).publishedAt = pub.toInt64 cast ∧
        (parse cast (some j)).soakH = s ∧ (parse cast (some j)).rampH = r) ∨
      (¬ AnyPresent j ∧ (parse cast (some j)).hasStaging = false ∧
        (parse cast (some j)).stagingInvalid = false) ∨
      ((∀ pub p s r, ¬ Block j pub p s r) ∧ (parse cast (some j)).hasStaging = false ∧
        (parse cast (some j)).stagingInvalid = true) := by
  rw [parse_object cast hobj, withFrozen_eq]
  rcases withStaging_cases cast j (plain j) with ⟨pub, p, s, r, hb, heq⟩ | ⟨hno, heq⟩ | ⟨hno, heq⟩
  · rw [heq]
    exact .inl ⟨pub, p, s, r, hb, rfl, rfl, rfl, rfl, rfl⟩
  · rw [heq]
    exact .inr (.inl ⟨hno, rfl, rfl⟩)
  · rw [heq]
    exact .inr (.inr ⟨hno, rfl, rfl⟩)

/-- An accepted staging block reaches the parsed manifest. -/
theorem parse_block (cast : Json.FloatCast) (hobj : j.isObject = true) (hb : Block j pub p s r) :
    (parse cast (some j)).hasStaging = true ∧ (parse cast (some j)).stagingInvalid = false ∧
      (parse cast (some j)).publishedAt = pub.toInt64 cast ∧
      (parse cast (some j)).soakH = s ∧ (parse cast (some j)).rampH = r := by
  rw [parse_object cast hobj, withFrozen_eq, hb.withStaging_eq]
  exact ⟨rfl, rfl, rfl, rfl, rfl⟩

/-- The version, the checksums and the validity of a parsed manifest. -/
theorem parse_plain (cast : Json.FloatCast) (hobj : j.isObject = true) :
    (parse cast (some j)).version = versionIn j ∧
      (parse cast (some j)).checksums = checksumsIn j ∧
      (parse cast (some j)).valid = decide (versionIn j ≠ "") := by
  rw [parse_object cast hobj, withFrozen_eq]
  rcases withStaging_cases cast j (plain j) with ⟨pub, p, s, r, hb, heq⟩ | ⟨hno, heq⟩ |
    ⟨hno, heq⟩ <;>
    rw [heq] <;> exact ⟨rfl, rfl, rfl⟩

/-- A manifest that `parse` accepts has a version that is not empty. -/
theorem version_ne_of_valid {text : Option Json} (h : (parse cast text).valid = true) :
    (parse cast text).version ≠ "" := by
  cases text with
  | none => cases h
  | some j =>
    by_cases hobj : j.isObject = true
    · obtain ⟨hversion, -, hvalid⟩ := parse_plain cast hobj
      rw [hvalid, decide_eq_true_eq] at h
      rwa [hversion]
    · rw [parse, if_neg hobj] at h
      cases h

end Parse

/-- The checksum for an architecture, if there is one. -/
def checksumFor (m : Manifest) (arch : String) : Option String := m.checksums.lookup arch

end Manifest

/-- What a device makes of a manifest at a moment. -/
inductive Eligibility where
  | eligible        -- the staged rollout reached this device
  | legacyEligible  -- no staging block: eligible immediately
  | soak            -- still in the soak period
  | ramp            -- in the ramp, but this device's turn has not come
  | invalid         -- malformed staging block
  | clock           -- device clock earlier than the publication
  deriving DecidableEq, Repr

/-- The release may be installed, with or without staging. -/
def isEligible (e : Eligibility) : Bool := e = .eligible || e = .legacyEligible

/-- A fraction in `[0, 1)` for every device and version. -/
structure Fractions where
  fraction : String → String → Rat
  nonneg : ∀ deviceId version, 0 ≤ fraction deviceId version
  lt_one : ∀ deviceId version, fraction deviceId version < 1

/-- The big-endian value of the first eight bytes of a digest. -/
def bigEndian (digest : List UInt8) : UInt64 :=
  (digest.take 8).foldl (fun be b => be <<< 8 ||| b.toUInt64) 0

/-- `device_fraction`, for the digest function of the library. A digest of fewer than eight
bytes counts as a failure. -/
def deviceFraction (sha256 : String → List UInt8) : Fractions where
  fraction deviceId version :=
    if (sha256 (deviceId ++ ":" ++ version)).length < 8 then 0
    else (bigEndian (sha256 (deviceId ++ ":" ++ version))).toNat / 2 ^ 64
  nonneg deviceId version := by
    split
    · exact le_rfl
    · positivity
  lt_one deviceId version := by
    split
    · exact one_pos
    · rw [div_lt_one (by positivity)]
      exact_mod_cast (bigEndian _).toNat_lt

namespace Manifest

variable (m : Manifest)

/-- The end of the soak period, in epoch seconds. -/
def soakEnd : Rat := m.publishedAt.toInt + m.soakH * 3600

/-- The instant that the exposure of the ramp is computed for. -/
def rampRef (now : Int64) : Rat :=
  if m.hasFrozen then min (now.toInt : Rat) m.frozenAt.toInt else now.toInt

end Manifest

/-- `evaluate_eligibility`: the soak has to be over, and the ramp has to have reached the fraction
of the device. A manifest without staging fields is for every device. -/
def evaluateEligibility (f : Fractions) (m : Manifest) (deviceId : String) (now : Int64) :
    Eligibility :=
  if !m.valid then .invalid
  else if m.stagingInvalid then .invalid
  else if !m.hasStaging then .legacyEligible
  else if now < m.publishedAt then .clock
  else if (now.toInt : Rat) < m.soakEnd then .soak
  else if m.rampH ≤ 0 then .eligible
  else if (m.rampRef now - m.soakEnd) / 3600 / m.rampH > f.fraction deviceId m.version then
    .eligible
  else .ramp

end ThinrAgent
