import ThinrAgent.Proofs.Rollout

/-!
# `ThinrAgent.Proofs.ManifestSafety`: the parser of the manifest is fail-safe

A staging field of a manifest must either be part of a whole block that reaches the parsed
manifest as it was written, or leave the manifest eligible for nobody. The parser checks the
publication date as a `double` and stores it by a second conversion to `int64_t`, which keeps
the date below `2 ^ 63` only. `failSafe_iff` says that this is the one exception.
-/

set_option autoImplicit false

namespace ThinrAgent

namespace Json

/-- A positive number below `2 ^ 63` reaches an `int64_t` truncated. -/
theorem toInt_toInt64 (cast : FloatCast) {j : Json} {q : Rat} (hj : j.number = some q)
    (hpos : 0 < q) (hlt : q < 2 ^ 63) : (j.toInt64 cast).toInt = truncate q := by
  have hfloor : truncate q = ⌊q⌋ := if_pos hpos.le
  have hnonneg : 0 ≤ truncate q := by
    rw [hfloor]
    exact Int.floor_nonneg.mpr hpos.le
  have hbound : truncate q < 2 ^ 63 := by
    rw [hfloor, Int.floor_lt]
    exact_mod_cast hlt
  -- An integer goes through the conversion of the library, a `double` through the cast.
  cases j with
  | int z =>
    obtain rfl : (z : Rat) = q := by simpa [number] using hj
    have hz : truncate (z : Rat) = z := by simp [truncate]
    rw [hz] at hnonneg hbound ⊢
    exact Int64.toInt_ofInt_of_le (by omega) hbound
  | float q' =>
    obtain rfl : q' = q := by simpa [number] using hj
    show (cast.toInt64 q').toInt = _
    rw [cast.exact q' (by omega) hbound]
    exact Int64.toInt_ofInt_of_le (by omega) hbound
  | null => cases hj
  | bool b => cases hj
  | str s => cases hj
  | arr xs => cases hj
  | obj kvs => cases hj

/-- The truncation of a number that is too large does not fit. -/
theorem le_truncate {q : Rat} (h : 2 ^ 63 ≤ q) : 2 ^ 63 ≤ truncate q := by
  rw [truncate, if_pos (le_trans (by positivity) h), Int.le_floor]
  exact_mod_cast h

end Json

namespace Manifest

/-- A staging field that is present is part of a block in the documented ranges that the
manifest carries as written, or nobody is ever eligible. -/
def FailSafe (cast : Json.FloatCast) (text : Option Json) : Prop :=
  ∀ j ∈ text, AnyPresent j →
    (∃ pub p s r, Block j pub p s r ∧ (parse cast text).hasStaging = true ∧
      (parse cast text).publishedAt.toInt = Json.truncate p ∧
      (parse cast text).soakH = s ∧ (parse cast text).rampH = r) ∨
    ∀ f now, (parse cast text).eligibleAt f now = ∅

/-- A publication date that is still to come is not read as one that is past. -/
def DateKept (cast : Json.FloatCast) (text : Option Json) : Prop :=
  ∀ j ∈ text, ∀ pub p, j.find "published_at" = some pub → pub.number = some p →
    (parse cast text).hasStaging = true →
    ∀ now : Int64, now.toInt < Json.truncate p → now < (parse cast text).publishedAt

/-- A manifest with a staging field is an object. -/
theorem isObject_of_anyPresent {j : Json} (h : AnyPresent j) : j.isObject = true := by
  cases j <;> first | rfl | simp [AnyPresent, Json.contains, Json.find] at h

/-- Nobody is eligible under a manifest with an invalid staging block. -/
theorem eligibleAt_of_invalid {m : Manifest} (h : m.stagingInvalid = true) (f : Fractions)
    (now : Int64) : m.eligibleAt f now = ∅ := by
  ext deviceId
  simp only [eligibleAt, Set.mem_ofPred_eq, Set.mem_empty_iff_false, iff_false, evaluateEligibility,
    h, if_true]
  split <;> simp [isEligible]

/-- An accepted date below `2 ^ 63` is stored as it was written. -/
theorem publishedAt_of_block {cast : Json.FloatCast} {j pub : Json} {p s r : Rat}
    (hb : Block j pub p s r) (hlt : p < 2 ^ 63) :
    (parse cast (some j)).publishedAt.toInt = Json.truncate p := by
  rw [(parse_block cast (isObject_of_anyPresent hb.anyPresent) hb).2.2.1]
  exact Json.toInt_toInt64 cast hb.publishedNumber hb.ok.1 hlt

/-- The parser is fail-safe and keeps the publication date exactly for the texts whose staging
block, if it is accepted, has a publication date below `2 ^ 63`, which the cast to 64 bits needs. -/
theorem failSafe_iff (cast : Json.FloatCast) (text : Option Json) :
    FailSafe cast text ∧ DateKept cast text ↔
      ∀ j ∈ text, ∀ pub p s r, Block j pub p s r → p < 2 ^ 63 := by
  constructor
  · rintro ⟨-, hkept⟩ j rfl pub p s r hb
    by_contra hlarge
    -- The last instant of the machine is before such a date, but not before the stored one.
    have hlast : Int64.maxValue.toInt < Json.truncate p := by
      have := Json.le_truncate (not_lt.mp hlarge)
      rw [Int64.toInt_maxValue]
      omega
    have hobj := isObject_of_anyPresent hb.anyPresent
    have hlt := hkept j rfl pub p hb.published hb.publishedNumber (parse_block cast hobj hb).1
      Int64.maxValue hlast
    have := Int64.toInt_lt (parse cast (some j)).publishedAt
    rw [Int64.lt_iff_toInt_lt, Int64.toInt_maxValue] at hlt
    omega
  · intro hsmall
    constructor
    · rintro j rfl hany
      have hobj := isObject_of_anyPresent hany
      rcases parse_cases cast hobj with ⟨pub, p, s, r, hb, h⟩ | ⟨hno, -⟩ | ⟨-, -, hinv⟩
      · exact .inl ⟨pub, p, s, r, hb, h.1, publishedAt_of_block hb (hsmall j rfl pub p s r hb),
          h.2.2.2.1, h.2.2.2.2⟩
      · exact absurd hany hno
      · exact .inr fun f now => eligibleAt_of_invalid hinv f now
    · rintro j rfl pub p hpub hp hstaging now hnow
      have hany : AnyPresent j := .inl (by simp [Json.contains, hpub])
      have hobj := isObject_of_anyPresent hany
      rcases parse_cases cast hobj with ⟨pub', p', s, r, hb, -⟩ | ⟨-, hno, -⟩ | ⟨-, hno, -⟩
      · obtain rfl : pub = pub' := by simpa [hpub] using hb.published
        obtain rfl : p = p' := by simpa [hp] using hb.publishedNumber
        rw [Int64.lt_iff_toInt_lt, publishedAt_of_block hb (hsmall j rfl pub p s r hb)]
        exact hnow
      · rw [hno] at hstaging
        cases hstaging
      · rw [hno] at hstaging
        cases hstaging

/-- A manifest that is published at the largest `uint64`. -/
def sampleFarFuture : Json :=
  .obj [("version", .str "v2.0.0"), ("published_at", .int 18446744073709551615),
    ("soak_h", .int 0), ("ramp_h", .int 0)]

/-- Its publication date is read as one second before the epoch, and the device of the sample is
eligible at once. -/
theorem not_failSafe_sample :
    (parse .wrap (some sampleFarFuture)).publishedAt = -1 ∧
      "device-aaa" ∈ (parse .wrap (some sampleFarFuture)).eligibleAt sampleFractions 1762000000 ∧
      ¬ (FailSafe .wrap (some sampleFarFuture) ∧ DateKept .wrap (some sampleFarFuture)) := by
  have hpub : (parse .wrap (some sampleFarFuture)).publishedAt = -1 := by decide +kernel
  have hin : "device-aaa" ∈
      (parse .wrap (some sampleFarFuture)).eligibleAt sampleFractions 1762000000 := by
    show isEligible _ = true
    decide +kernel
  refine ⟨hpub, hin, fun h => ?_⟩
  rcases h.1 _ rfl (.inr (.inl rfl)) with ⟨pub, p, s, r, hb, -, hkept, -⟩ | hnone
  · have hp : 0 ≤ Json.truncate p := by
      rw [Json.truncate, if_pos hb.ok.1.le]
      exact Int.floor_nonneg.mpr hb.ok.1.le
    rw [hpub] at hkept
    rw [← hkept] at hp
    exact absurd hp (by decide)
  · rw [hnone] at hin
    exact hin

end Manifest

end ThinrAgent
