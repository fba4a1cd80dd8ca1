import ThinrAgent.Proofs.Rollout
import ThinrAgent.Update.DeviceFraction

/-!
# `ThinrAgent.Proofs.DeviceFraction`: is the fraction of a device below one?

The loop over the digest computes the big-endian number of its first eight bytes
(`toNat_bigEndian`), a `long double` holds it exactly, and the division by `2 ^ 64` is exact, so
the clamp before one is never taken. The conversion to `double` rounds to 53 bits afterwards, and
there the largest numbers become one. A device with such a digest is still in the ramp when the ramp
is complete.

The ramp is computed in the same `long double`, every operation with its rounding. A positive part
of it has elapsed only after the soak and the publication (`evaluateIn_of_exposureIn`), so a device
whose fraction is below one is reached once the computed exposure is one, and for a ramp of whole
hours this is its end (`exposureIn_rampEnd`). `fractionRight_iff` puts both parts together.
-/

set_option autoImplicit false

namespace ThinrAgent

/-- The first eight bytes of a digest as a big-endian number. -/
def bigEndianValue (digest : List UInt8) : Nat :=
  (digest.take 8).foldl (fun n b => n * 256 + b.toNat) 0

/-- One step of the loop appends a byte while the high byte is free. -/
theorem toNat_shiftLeft_or {be : UInt64} (b : UInt8) (h : be.toNat < 2 ^ 56) :
    (be <<< 8 ||| b.toUInt64).toNat = be.toNat * 256 + b.toNat := by
  have hb : b.toNat < 2 ^ 8 := b.toNat_lt
  have hshift : (be <<< 8).toNat = be.toNat <<< 8 := by
    rw [UInt64.toNat_shiftLeft]
    show be.toNat <<< 8 % 2 ^ 64 = be.toNat <<< 8
    rw [Nat.shiftLeft_eq]
    omega
  rw [UInt64.toNat_or, hshift, UInt8.toNat_toUInt64, ← Nat.shiftLeft_add_eq_or_of_lt hb,
    Nat.shiftLeft_eq]

/-- The loop over eight bytes computes the big-endian number, without a wrap. -/
theorem toNat_bigEndian (digest : List UInt8) :
    (bigEndian digest).toNat = bigEndianValue digest := by
  -- The number so far leaves room for the bytes to come, so no shift loses a bit.
  have hloop : ∀ (bs : List UInt8) (be : UInt64), be.toNat < 2 ^ (64 - 8 * bs.length) →
      bs.length ≤ 8 → (bs.foldl (fun (be : UInt64) b => be <<< 8 ||| b.toUInt64) be).toNat =
        bs.foldl (fun n b => n * 256 + b.toNat) be.toNat := by
    intro bs
    induction bs with
    | nil => intro be _ _; rfl
    | cons b bs ih =>
      intro be hbe hlen
      rw [List.length_cons] at hbe hlen
      have hfree : 2 ^ (64 - 8 * (bs.length + 1)) ≤ 2 ^ 56 :=
        Nat.pow_le_pow_right (by omega) (by omega)
      have hstep := toNat_shiftLeft_or b (by omega : be.toNat < 2 ^ 56)
      have hnext : (be <<< 8 ||| b.toUInt64).toNat < 2 ^ (64 - 8 * bs.length) := by
        have hb := b.toNat_lt
        have hpow : 2 ^ (64 - 8 * bs.length) = 2 ^ (64 - 8 * (bs.length + 1)) * 256 := by
          rw [show (256 : Nat) = 2 ^ 8 by decide, ← pow_add]
          congr 1
          omega
        rw [hstep, hpow]
        omega
      rw [List.foldl_cons, List.foldl_cons, ih _ hnext (by omega), hstep]
  exact hloop (digest.take 8) 0 (Nat.two_pow_pos _) (by simp)

section Fraction
variable {p : Nat} {sha256 : String → Vector UInt8 32} {deviceId version : String}

/-- The digest of a device for a version, as a number. -/
def digestValue (sha256 : String → Vector UInt8 32) (deviceId version : String) : Nat :=
  bigEndianValue (sha256 (deviceId ++ ":" ++ version)).toList

/-- The fraction the agent computes, as a number. -/
def fractionOf (p : Nat) (sha256 : String → Vector UInt8 32) (deviceId version : String) : Rat :=
  (deviceFractionIn p (fun text => (sha256 text).toList) deviceId version).toRat

/-- The first eight bytes of a digest are a number of 64 bits. -/
theorem digestValue_lt (sha256 : String → Vector UInt8 32) (deviceId version : String) :
    digestValue sha256 deviceId version < 2 ^ 64 := by
  rw [digestValue, ← toNat_bigEndian]
  exact (bigEndian _).toNat_lt

/-- The clamp is not taken, and the fraction is the number of the digest over `2 ^ 64`, rounded to
53 bits. -/
theorem fractionOf_eq (hp : 64 ≤ p) : fractionOf p sha256 deviceId version =
    roundRat 53 (digestValue sha256 deviceId version / 2 ^ 64) := by
  have hlt := digestValue_lt sha256 deviceId version
  have hexact : roundBits p (digestValue sha256 deviceId version) =
      digestValue sha256 deviceId version :=
    roundBits_eq_self (hlt.trans_le (Nat.pow_le_pow_right (by omega) hp))
  have hbelow : ((FloatValue.ofUInt64 p
      (bigEndian (sha256 (deviceId ++ ":" ++ version)).toList)).divPow 64).geOne = false := by
    show decide (2 ^ (0 + 64) ≤ roundBits p (bigEndian _).toNat) = false
    rw [toNat_bigEndian]
    show decide (2 ^ 64 ≤ roundBits p (digestValue sha256 deviceId version)) = false
    rw [hexact]
    exact decide_eq_false (by omega)
  unfold fractionOf deviceFractionIn
  simp only [Vector.length_toList, hbelow]
  show (FloatValue.toDouble _).toRat = _
  rw [FloatValue.toRat_toDouble]
  show roundRat 53 (roundBits p (bigEndian _).toNat / 2 ^ (0 + 64)) = _
  rw [toNat_bigEndian]
  show roundRat 53 (roundBits p (digestValue sha256 deviceId version) / 2 ^ (0 + 64)) = _
  rw [hexact]

/-- The fraction is below one exactly for the numbers that are not rounded to `2 ^ 64`. -/
theorem fractionOf_lt_one_iff (hp : 64 ≤ p) : fractionOf p sha256 deviceId version < 1 ↔
    digestValue sha256 deviceId version < 2 ^ 64 - 2 ^ 10 := by
  rw [fractionOf_eq hp, roundRat_div_two_pow, div_lt_one (by positivity)]
  have hround := roundBits_lt_two_pow_iff (p := 53) (k := 64) (by omega) (by omega)
    (digestValue_lt sha256 deviceId version)
  rw [← show 64 - 53 - 1 = 10 by decide, ← hround]
  exact_mod_cast Iff.rfl

end Fraction

/-! ### The ramp in the same arithmetic -/

section Ramp
variable {p : Nat} {m : Manifest} {deviceId : String} {now : Int64}

/-- An `int64_t` has fewer bits than a `long double`. -/
theorem abs_toInt_lt (hp : 64 ≤ p) (t : Int64) : |t.toInt| < 2 ^ p := by
  have hlow := t.le_toInt
  have hhigh := t.toInt_lt
  have hpow : (2 : Int) ^ 64 ≤ 2 ^ p := pow_le_pow_right₀ (by decide) hp
  rw [abs_lt]
  omega

/-- The conversion of an `int64_t` to a `long double` is exact. -/
theorem roundRat_toInt (hp : 64 ≤ p) (t : Int64) : roundRat p t.toInt = t.toInt :=
  roundRat_intCast (by omega) (abs_toInt_lt hp t)

/-- The computed end of the soak is not before the publication. -/
theorem published_le_soakEndIn (hp : 64 ≤ p) (h : m.Staged) :
    (m.publishedAt.toInt : Rat) ≤ m.soakEndIn (roundRat p) := by
  have hsoak : 0 ≤ roundRat p (m.soakH * 3600) :=
    roundRat_nonneg (mul_nonneg h.soak_nonneg (by norm_num))
  rw [Manifest.soakEndIn, roundRat_toInt hp]
  exact intCast_le_roundRat (by omega) (abs_toInt_lt hp _) (le_add_of_nonneg_right hsoak)

/-- The time that the ramp goes by is not after the present, also when the present is converted to a
`long double`, which holds every 64-bit time. -/
theorem rampRefIn_le (hp : 64 ≤ p) : m.rampRefIn (roundRat p) now ≤ now.toInt := by
  rw [Manifest.rampRefIn, roundRat_toInt hp]
  split
  · exact min_le_left _ _
  · exact le_rfl

/-- A positive part of the ramp has elapsed only after the soak. -/
theorem soakEndIn_lt_of_exposureIn_pos (hp : 64 ≤ p) (hramp : 0 < m.rampH)
    (h : 0 < m.exposureIn (roundRat p) now) : m.soakEndIn (roundRat p) < now.toInt := by
  have hquot := pos_of_roundRat_pos h
  have helapsed := pos_of_roundRat_pos ((div_pos_iff_of_pos_right hramp).mp hquot)
  have hdiff := pos_of_roundRat_pos ((div_pos_iff_of_pos_right (by norm_num)).mp helapsed)
  have href : m.rampRefIn (roundRat p) now ≤ now.toInt := rampRefIn_le hp
  linarith

/-- Once the whole ramp has elapsed, as the agent computes it, a device is reached exactly when its
fraction is below the exposure. -/
theorem evaluateIn_of_exposureIn {fraction : String → String → Rat} (hp : 64 ≤ p) (h : m.Staged)
    (hramp : 0 < m.rampH) (hpos : 0 < m.exposureIn (roundRat p) now) :
    evaluateIn (roundRat p) fraction m deviceId now =
      if m.exposureIn (roundRat p) now > fraction deviceId m.version then .eligible else .ramp := by
  have hend := soakEndIn_lt_of_exposureIn_pos hp hramp hpos
  have hclock : ¬ now < m.publishedAt := by
    intro hlt
    have hrat : (now.toInt : Rat) < m.publishedAt.toInt := by
      exact_mod_cast Int64.lt_iff_toInt_lt.mp hlt
    linarith [published_le_soakEndIn hp h]
  have hsoak : ¬ roundRat p now.toInt < m.soakEndIn (roundRat p) := by
    rw [roundRat_toInt hp]
    exact not_lt.mpr hend.le
  simp only [evaluateIn, h.valid, h.notInvalid, h.hasStaging, Bool.not_true, Bool.false_eq_true,
    if_false]
  rw [if_neg hclock, if_neg hsoak, if_neg (not_le.mpr hramp)]

/-- With whole hours for the soak and the ramp nothing is rounded: at the instant at which the ramp
is complete its exposure is one. -/
theorem exposureIn_rampEnd (hp : 64 ≤ p) (h : m.Staged) {s r : Nat} (hs : m.soakH = s)
    (hr : m.rampH = r) (hramp : 0 < m.rampH) (hend : m.rampRef now = m.rampEnd) :
    m.exposureIn (roundRat p) now = 1 := by
  have hpow : (2 : Int) ^ 64 ≤ 2 ^ p := pow_le_pow_right₀ (by decide) hp
  have hsmax : s ≤ 8760 := by exact_mod_cast hs ▸ h.soak_le
  have hrmax : r ≤ 8760 := by exact_mod_cast hr ▸ h.ramp_le
  have hrpos : (r : Rat) ≠ 0 := (hr ▸ hramp).ne'
  -- Every intermediate result is an integer of at most 64 bits.
  have exact (k : Int) (hlow : -(2 ^ 64) < k) (hhigh : k < 2 ^ 64) : roundRat p k = k :=
    roundRat_intCast (by omega) (abs_lt.mpr ⟨by omega, by omega⟩)
  have hsoakEnd : m.soakEndIn (roundRat p) = m.soakEnd := by
    have hlow := m.publishedAt.le_toInt
    have hhigh := m.publishedAt.toInt_lt
    have hhours : roundRat p (m.soakH * 3600) = m.soakH * 3600 := by
      have := exact (s * 3600) (by omega) (by omega)
      rw [hs]
      exact_mod_cast this
    have hsum := exact (m.publishedAt.toInt + s * 3600) (by omega) (by omega)
    rw [Manifest.soakEndIn, Manifest.soakEnd, roundRat_toInt hp, hhours, hs]
    exact_mod_cast hsum
  have hrampRef : m.rampRefIn (roundRat p) now = m.rampRef now := by
    rw [Manifest.rampRefIn, Manifest.rampRef, roundRat_toInt hp, roundRat_toInt hp]
  have hseconds : roundRat p (m.rampRef now - m.soakEnd) = 3600 * r := by
    have := exact (3600 * r) (by omega) (by omega)
    rw [hend, Manifest.rampEnd, add_sub_cancel_left, hr]
    exact_mod_cast this
  have hhours : roundRat p (3600 * (r : Rat) / 3600) = r := by
    have := exact r (by omega) (by omega)
    rw [mul_div_cancel_left₀ _ (by norm_num)]
    exact_mod_cast this
  have hone := exact 1 (by omega) (by omega)
  rw [Manifest.exposureIn, hsoakEnd, hrampRef, hseconds, hhours, hr, div_self hrpos]
  exact_mod_cast hone

end Ramp

/-! ### The result -/

/-- What the fraction of a device should be: a number in `[0, 1)`, the number of the digest over
`2 ^ 64` up to the rounding to `double`, and no less than the fraction of a smaller digest. A device
with it is eligible as soon as the whole ramp has elapsed, as the agent computes the elapsed part,
and in particular at the end of a ramp of whole hours. -/
structure FractionRight (p : Nat) (sha256 : String → Vector UInt8 32)
    (deviceId version : String) : Prop where
  nonneg : 0 ≤ fractionOf p sha256 deviceId version
  lt_one : fractionOf p sha256 deviceId version < 1
  value_eq : fractionOf p sha256 deviceId version =
    roundRat 53 (digestValue sha256 deviceId version / 2 ^ 64)
  mono : ∀ deviceId' version', digestValue sha256 deviceId' version' ≤
    digestValue sha256 deviceId version →
      fractionOf p sha256 deviceId' version' ≤ fractionOf p sha256 deviceId version
  reached : ∀ (m : Manifest) (now : Int64), m.Staged → m.version = version → 0 < m.rampH →
    1 ≤ m.exposureIn (roundRat p) now →
      evaluateIn (roundRat p) (fractionOf p sha256) m deviceId now = .eligible
  complete : ∀ (m : Manifest) (now : Int64) (s r : Nat), m.Staged → m.version = version →
    m.soakH = s → m.rampH = r → 0 < m.rampH → m.rampRef now = m.rampEnd →
      evaluateIn (roundRat p) (fractionOf p sha256) m deviceId now = .eligible

/-- The fraction of a device is what it should be exactly when the first eight bytes of its digest
are not among the `2 ^ 10` largest numbers. -/
theorem fractionRight_iff {p : Nat} (hp : 64 ≤ p) (sha256 : String → Vector UInt8 32)
    (deviceId version : String) : FractionRight p sha256 deviceId version ↔
      digestValue sha256 deviceId version < 2 ^ 64 - 2 ^ 10 := by
  constructor
  · intro h
    exact (fractionOf_lt_one_iff hp).mp h.lt_one
  · intro h
    have hlt := (fractionOf_lt_one_iff hp).mpr h
    have hreached : ∀ (m : Manifest) (now : Int64), m.Staged → m.version = version → 0 < m.rampH →
        1 ≤ m.exposureIn (roundRat p) now →
          evaluateIn (roundRat p) (fractionOf p sha256) m deviceId now = .eligible := by
      rintro m now hstaged rfl hramp hexposure
      rw [evaluateIn_of_exposureIn hp hstaged hramp (by linarith), if_pos (by linarith)]
    refine ⟨?_, hlt, fractionOf_eq hp, fun deviceId' version' hle => ?_, hreached, ?_⟩
    · rw [fractionOf_eq hp]
      exact roundRat_nonneg (by positivity)
    · rw [fractionOf_eq hp, fractionOf_eq hp, roundRat_div_two_pow, roundRat_div_two_pow]
      have hround := roundBits_mono (p := 53) (by omega) hle
      gcongr
    · intro m now s r hstaged hversion hs hr hramp hend
      exact hreached m now hstaged hversion hramp
        (exposureIn_rampEnd hp hstaged hs hr hramp hend).ge

/-- A digest that starts with `0xFFFFFFFFFFFFFBFF`, the largest number below the bound. -/
def sampleDigest : Vector UInt8 32 :=
  (#v[255, 255, 255, 255, 255, 255, 251, 255] : Vector UInt8 8) ++ Vector.replicate 24 (0 : UInt8)

/-- The largest digest for which the fraction is right, one below the first that is rounded to
one. -/
theorem fractionRight_iff_sample : FractionRight 64 (fun _ => sampleDigest) "device" "v1.0.0" :=
  (fractionRight_iff (by omega) _ _ _).mpr (by decide +kernel)

/-- A digest of ones has the fraction one, and the device is excluded when the ramp is complete. -/
theorem not_fractionRight_sample :
    ¬ FractionRight 64 (fun _ => Vector.replicate 32 255) "device" "v1.0.0" := by
  intro h
  have hlt := (fractionOf_lt_one_iff (by omega)).mp h.lt_one
  revert hlt
  decide +kernel

end ThinrAgent
