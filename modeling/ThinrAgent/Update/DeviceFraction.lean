import ThinrAgent.Std.RoundRat
import ThinrAgent.Update.Manifest

/-!
# `ThinrAgent.Update.DeviceFraction`: the fraction of a device in machine arithmetic

`device_fraction` and `evaluate_eligibility` (`update/manifest.cpp`), in the arithmetic the source
uses. `deviceFraction` and `evaluateEligibility` of `Update.Manifest` are the exact ones.

The fraction is a `FloatValue`, that is `num / 2 ^ exp`, so a division by a power of two and a
conversion to fewer bits act on one of the two numbers; `FloatValue.toRat_toDouble` says that the
conversion is the rounding of the number. The ramp has operations between any two values, so it is
computed with rational numbers, and each operation is the exact one with a rounding after it:
`evaluateIn (roundRat p)` is the function of a `long double` of `p` bits, and `evaluateIn id` the
exact one (`evaluateEligibility_eq`).
-/

set_option autoImplicit false

namespace ThinrAgent

/-- A nonnegative value of a floating-point type, `num / 2 ^ exp`, as exact as it is stored. -/
structure FloatValue where
  num : Nat
  exp : Nat
  deriving DecidableEq, Repr

namespace FloatValue

/-- The value as a rational number, for statements about it. -/
def toRat (f : FloatValue) : Rat := f.num / 2 ^ f.exp

/-- The conversion of a `uint64_t` to a `long double` of `p` bits. -/
def ofUInt64 (p : Nat) (n : UInt64) : FloatValue := ⟨roundBits p n.toNat, 0⟩

/-- The division by `2 ^ k`, which only changes the exponent and needs no rounding. -/
def divPow (f : FloatValue) (k : Nat) : FloatValue := ⟨f.num, f.exp + k⟩

/-- `f >= 1.0L`: the comparison of a value with one, without a rounding. -/
def geOne (f : FloatValue) : Bool := 2 ^ f.exp ≤ f.num

/-- `nextafter(1.0L, 0.0L)`, for a `long double` of `p` bits. -/
def beforeOne (p : Nat) : FloatValue := ⟨2 ^ p - 1, p⟩

/-- The conversion to `double`: the numerator is rounded to 53 significant bits. -/
def toDouble (f : FloatValue) : FloatValue := ⟨roundBits 53 f.num, f.exp⟩

end FloatValue

/-- `device_fraction`, for the digest function of the library and a `long double` of `p` bits. -/
def deviceFractionIn (p : Nat) (sha256 : String → List UInt8) (deviceId version : String) :
    FloatValue :=
  let digest := sha256 (deviceId ++ ":" ++ version)
  if digest.length < 8 then ⟨0, 0⟩
  else
    let f := (FloatValue.ofUInt64 p (bigEndian digest)).divPow 64
    let f := if f.geOne then FloatValue.beforeOne p else f
    f.toDouble

/-- The conversion to `double` is the rounding of the number to 53 bits. -/
theorem FloatValue.toRat_toDouble (f : FloatValue) : f.toDouble.toRat = roundRat 53 f.toRat :=
  (roundRat_div_two_pow 53 f.num f.exp).symm

namespace Manifest

variable (round : Rat → Rat) (m : Manifest)

/-- `soak_end`, where every operation of a `long double` is followed by the rounding. -/
def soakEndIn : Rat := round (round m.publishedAt.toInt + round (m.soakH * 3600))

/-- `ramp_ref`: the current time, or the time of the freeze when that is earlier. -/
def rampRefIn (now : Int64) : Rat :=
  if m.hasFrozen then min (round now.toInt) (round m.frozenAt.toInt) else round now.toInt

/-- `ramp_elapsed_h / m.ramp_h`, the part of the ramp that has elapsed. -/
def exposureIn (now : Int64) : Rat :=
  round (round (round (m.rampRefIn round now - m.soakEndIn round) / 3600) / m.rampH)

end Manifest

/-- `evaluate_eligibility`, for a rounding of the operations and any fractions of the devices. -/
def evaluateIn (round : Rat → Rat) (fraction : String → String → Rat) (m : Manifest)
    (deviceId : String) (now : Int64) : Eligibility :=
  if !m.valid then .invalid
  else if m.stagingInvalid then .invalid
  else if !m.hasStaging then .legacyEligible
  else if now < m.publishedAt then .clock
  else if round now.toInt < m.soakEndIn round then .soak
  else if m.rampH ≤ 0 then .eligible
  else if m.exposureIn round now > fraction deviceId m.version then .eligible
  else .ramp

/-- Without a rounding it is the exact function. -/
theorem evaluateEligibility_eq (f : Fractions) :
    evaluateEligibility f = evaluateIn id f.fraction := rfl

end ThinrAgent
