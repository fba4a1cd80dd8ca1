import Mathlib.Data.Int.Log
import Mathlib.Data.Rat.Floor
import Mathlib.Tactic.Linarith
import ThinrAgent.Std.Rounding

/-!
# `ThinrAgent.Std.RoundRat`: rounding a rational number to a number of bits

`roundRat p q` is the number with `p` significant bits next to `q`, and the even one of two that are
as near. This is what an operation of a floating-point type gives whose exact result is `q`, as long
as the exponent stays in range.

The rounding keeps the integers of at most `p` bits (`roundRat_intCast`), never takes a number below
such an integer that it is not below (`intCast_le_roundRat`), and keeps the sign
(`pos_of_roundRat_pos`). On the numbers `n / 2 ^ k` it is the rounding of the mantissa by
`roundBits` (`roundRat_div_two_pow`).
-/

set_option autoImplicit false

namespace ThinrAgent

/-- The nearest integer, and the even one of two that are as near. -/
def roundEven (q : Rat) : Int :=
  if Int.fract q < 1 / 2 ∨ (Int.fract q = 1 / 2 ∧ ⌊q⌋ % 2 = 0) then ⌊q⌋ else ⌊q⌋ + 1

/-- The exponent of the last place of a number that has `p` significant bits. -/
def lastExponent (p : Nat) (q : Rat) : Int := Int.log 2 |q| + 1 - p

/-- A rational number rounded to `p` significant bits: a whole number of its last places. -/
def roundRat (p : Nat) (q : Rat) : Rat :=
  roundEven (q / 2 ^ lastExponent p q) * 2 ^ lastExponent p q

section RoundEven
variable {q : Rat} {k : Int}

/-- The nearest integer is not below the number rounded down. -/
theorem floor_le_roundEven (q : Rat) : ⌊q⌋ ≤ roundEven q := by
  unfold roundEven
  split <;> omega

/-- A number that is not below an integer is not rounded below it. -/
theorem le_roundEven (h : (k : Rat) ≤ q) : k ≤ roundEven q :=
  (Int.le_floor.mpr h).trans (floor_le_roundEven q)

/-- A number that is not above an integer is not rounded above it. -/
theorem roundEven_le (h : q ≤ k) : roundEven q ≤ k := by
  rcases h.lt_or_eq with hlt | rfl
  · have hfloor : ⌊q⌋ < k := Int.floor_lt.mpr hlt
    unfold roundEven
    split <;> omega
  · simp [roundEven]

/-- An integer is nearest to itself, so rounding does not move it. -/
theorem roundEven_intCast (k : Int) : roundEven (k : Rat) = k :=
  le_antisymm (roundEven_le le_rfl) (le_roundEven le_rfl)

/-- On a quotient of natural numbers it is the rounding division. -/
theorem roundEven_div (n : Nat) {unit : Nat} (hunit : 0 < unit) :
    roundEven ((n : Rat) / unit) = roundDiv n unit := by
  have hpos : (0 : Rat) < unit := by exact_mod_cast hunit
  have hfloor : ⌊(n : Rat) / unit⌋ = (n / unit : Nat) := by
    rw [Rat.floor_natCast_div_natCast]
    rfl
  have hfract : Int.fract ((n : Rat) / unit) = (n % unit : Nat) / unit :=
    Int.fract_div_natCast_eq_div_natCast_mod
  -- The two comparisons with one half, as comparisons of natural numbers.
  have hlt : ((n % unit : Nat) : Rat) / unit < 1 / 2 ↔ 2 * (n % unit) < unit := by
    rw [div_lt_div_iff₀ hpos two_pos, one_mul, mul_comm]
    exact_mod_cast Iff.rfl
  have heq : ((n % unit : Nat) : Rat) / unit = 1 / 2 ↔ 2 * (n % unit) = unit := by
    rw [div_eq_div_iff hpos.ne' two_ne_zero, one_mul, mul_comm]
    exact_mod_cast Iff.rfl
  have heven : ((n / unit : Nat) : Int) % 2 = 0 ↔ n / unit % 2 = 0 := by omega
  unfold roundEven roundDiv
  rw [hfloor, hfract]
  simp only [hlt, heq, heven]
  split
  · rfl
  · push_cast
    rfl

end RoundEven

section RoundRat
variable {p n : Nat} {q : Rat}

/-- The last place is a power of two. -/
theorem zpow_lastExponent_pos (p : Nat) (q : Rat) : (0 : Rat) < 2 ^ lastExponent p q :=
  zpow_pos two_pos _

/-- Zero is rounded to zero, at any number of bits. -/
@[simp] theorem roundRat_zero (p : Nat) : roundRat p 0 = 0 := by
  have hzero : roundEven 0 = 0 := roundEven_intCast 0
  rw [roundRat, zero_div, hzero, Int.cast_zero, zero_mul]

/-- A number that is rounded to a positive one is positive. -/
theorem pos_of_roundRat_pos (h : 0 < roundRat p q) : 0 < q := by
  by_contra hnot
  have hunit := zpow_lastExponent_pos p q
  have hquot : q / 2 ^ lastExponent p q ≤ (0 : Int) := by
    rw [Int.cast_zero]
    exact div_nonpos_of_nonpos_of_nonneg (not_lt.mp hnot) hunit.le
  have hround : (roundEven (q / 2 ^ lastExponent p q) : Rat) ≤ 0 := by
    exact_mod_cast roundEven_le hquot
  exact absurd h (not_lt.mpr (mul_nonpos_of_nonpos_of_nonneg hround hunit.le))

/-- A number that is not negative is not rounded to a negative one. -/
theorem roundRat_nonneg (h : 0 ≤ q) : 0 ≤ roundRat p q := by
  have hunit := zpow_lastExponent_pos p q
  have hround : (0 : Rat) ≤ roundEven (q / 2 ^ lastExponent p q) := by
    exact_mod_cast le_roundEven (k := 0) (by simpa using div_nonneg h hunit.le)
  exact mul_nonneg hround hunit.le

/-- An integer is a whole number of last places as long as these are not above one. -/
theorem exists_lastPlaces (k : Int) (h : lastExponent p q ≤ 0) :
    ∃ z : Int, (z : Rat) * 2 ^ lastExponent p q = k := by
  obtain ⟨e, he⟩ : ∃ e : Nat, lastExponent p q = -(e : Int) :=
    ⟨(-lastExponent p q).toNat, by omega⟩
  refine ⟨k * 2 ^ e, ?_⟩
  rw [he, zpow_neg, zpow_natCast]
  push_cast
  field_simp

/-- The last place of a number below `2 ^ p` is not above one. -/
theorem lastExponent_nonpos (hp : 0 < p) (hq : |q| < 2 ^ p) : lastExponent p q ≤ 0 := by
  rcases (abs_nonneg q).lt_or_eq with hpos | hzero
  · have hlog : Int.log 2 |q| < p := by
      refine (Int.lt_zpow_iff_log_lt (by decide) hpos).mp ?_
      rwa [Nat.cast_ofNat, zpow_natCast]
    rw [lastExponent]
    omega
  · rw [lastExponent, ← hzero, Int.log_zero_right]
    omega

/-- The rounding keeps a whole number of last places. -/
theorem roundRat_of_lastPlaces {z : Int} (h : (z : Rat) * 2 ^ lastExponent p q = q) :
    roundRat p q = q := by
  have hquot : q / 2 ^ lastExponent p q = z := by
    rw [div_eq_iff (zpow_lastExponent_pos p q).ne', h]
  rw [roundRat, hquot, roundEven_intCast, h]

/-- The rounding keeps the integers of at most `p` bits. -/
theorem roundRat_intCast (hp : 0 < p) {k : Int} (hk : |k| < 2 ^ p) : roundRat p k = k := by
  have habs : |(k : Rat)| < 2 ^ p := by exact_mod_cast hk
  obtain ⟨z, hz⟩ := exists_lastPlaces (p := p) (q := k) k (lastExponent_nonpos hp habs)
  exact roundRat_of_lastPlaces hz

/-- A number that is not below an integer of at most `p` bits is not rounded below it. -/
theorem intCast_le_roundRat (hp : 0 < p) {k : Int} (hk : |k| < 2 ^ p) (hq : (k : Rat) ≤ q) :
    (k : Rat) ≤ roundRat p q := by
  have hunit := zpow_lastExponent_pos p q
  have habs : |(k : Rat)| < 2 ^ p := by exact_mod_cast hk
  obtain ⟨hlow, hhigh⟩ := abs_lt.mp habs
  rcases lt_or_ge q (2 ^ p) with hsmall | hlarge
  · -- The integer is a whole number of last places itself.
    obtain ⟨z, hz⟩ := exists_lastPlaces (p := p) (q := q) k
      (lastExponent_nonpos hp (abs_lt.mpr ⟨hlow.trans_le hq, hsmall⟩))
    have hle : z ≤ roundEven (q / 2 ^ lastExponent p q) :=
      le_roundEven ((le_div_iff₀ hunit).mpr (hz.trans_le hq))
    calc (k : Rat) = z * 2 ^ lastExponent p q := hz.symm
      _ ≤ roundRat p q := mul_le_mul_of_nonneg_right (by exact_mod_cast hle) hunit.le
  · -- The power of two below the number is a whole number of last places.
    have hpos : 0 < q := lt_of_lt_of_le (by positivity) hlarge
    have hlog : (p : Int) ≤ Int.log 2 q := by
      refine (Int.zpow_le_iff_le_log (by decide) hpos).mp ?_
      rwa [Nat.cast_ofNat, zpow_natCast]
    have hexp : lastExponent p q = Int.log 2 q + 1 - p := by
      rw [lastExponent, abs_of_pos hpos]
    have hpow : ((2 ^ (p - 1) : Nat) : Rat) * 2 ^ lastExponent p q = 2 ^ Int.log 2 q := by
      rw [hexp, Nat.cast_pow, Nat.cast_ofNat, ← zpow_natCast, ← zpow_add₀ two_ne_zero]
      congr 1
      omega
    have hbelow : (2 : Rat) ^ Int.log 2 q ≤ q := Int.zpow_log_le_self (by decide) hpos
    have hle : ((2 ^ (p - 1) : Nat) : Int) ≤ roundEven (q / 2 ^ lastExponent p q) := by
      refine le_roundEven ((le_div_iff₀ hunit).mpr ?_)
      rw [Int.cast_natCast, hpow]
      exact hbelow
    -- Between the integer and the number lies a power of two, which the rounding does not cross.
    calc (k : Rat) ≤ 2 ^ p := hhigh.le
      _ = 2 ^ (p : Int) := (zpow_natCast _ _).symm
      _ ≤ 2 ^ Int.log 2 q := zpow_le_zpow_right₀ one_le_two hlog
      _ = ((2 ^ (p - 1) : Nat) : Rat) * 2 ^ lastExponent p q := hpow.symm
      _ ≤ roundRat p q := mul_le_mul_of_nonneg_right (by exact_mod_cast hle) hunit.le

/-- On a mantissa with a power of two below it, the mantissa is rounded. -/
theorem roundRat_div_two_pow (p n k : Nat) :
    roundRat p ((n : Rat) / 2 ^ k) = (roundBits p n : Rat) / 2 ^ k := by
  rcases Nat.eq_zero_or_pos n with rfl | hn
  · simp [roundBits_eq_self (Nat.two_pow_pos p)]
  have hq : (0 : Rat) < n / 2 ^ k := by positivity
  -- The exponents of the number and of its mantissa differ by `k`.
  have hlog : Int.log 2 ((n : Rat) / 2 ^ k) = (n.log2 : Int) - k := by
    have hlow : ((2 : Nat) : Rat) ^ ((n.log2 : Int) - k) ≤ n / 2 ^ k := by
      rw [Nat.cast_ofNat, zpow_sub₀ two_ne_zero, zpow_natCast, zpow_natCast]
      gcongr
      exact_mod_cast Nat.log2_self_le hn.ne'
    have hhigh : (n : Rat) / 2 ^ k < ((2 : Nat) : Rat) ^ ((n.log2 : Int) - k + 1) := by
      rw [Nat.cast_ofNat, sub_add_eq_add_sub, zpow_sub₀ two_ne_zero, zpow_natCast]
      gcongr
      exact_mod_cast Nat.lt_log2_self
    have hle := (Int.zpow_le_iff_le_log (by decide) hq).mp hlow
    have hlt := (Int.lt_zpow_iff_log_lt (by decide) hq).mp hhigh
    omega
  have hexp : lastExponent p ((n : Rat) / 2 ^ k) = (n.log2 : Int) - k + 1 - p := by
    rw [lastExponent, abs_of_pos hq, hlog]
  rcases Nat.lt_or_ge n.log2 p with hsmall | hlarge
  · -- The mantissa has at most `p` bits, and both roundings keep it.
    have hbits : n < 2 ^ p := (Nat.log2_lt hn.ne').mp hsmall
    obtain ⟨e, he⟩ : ∃ e : Nat, p = n.log2 + 1 + e := ⟨p - (n.log2 + 1), by omega⟩
    have hplaces : ((n * 2 ^ e : Nat) : Int) * (2 : Rat) ^ lastExponent p ((n : Rat) / 2 ^ k) =
        n / 2 ^ k := by
      rw [hexp, show (n.log2 : Int) - k + 1 - p = -(e : Int) - k by omega,
        zpow_sub₀ two_ne_zero, zpow_neg, zpow_natCast, zpow_natCast]
      push_cast
      field_simp
    rw [roundRat_of_lastPlaces (by exact_mod_cast hplaces), roundBits_eq_self hbits]
  · obtain ⟨t, ht⟩ : ∃ t : Nat, n.log2 + 1 = p + t := ⟨n.log2 + 1 - p, by omega⟩
    have hplace : lastPlace p n = 2 ^ t := by
      rw [lastPlace]
      congr 1
      omega
    have hunit : (2 : Rat) ^ lastExponent p ((n : Rat) / 2 ^ k) = (2 ^ t : Nat) / 2 ^ k := by
      rw [hexp, show (n.log2 : Int) - k + 1 - p = (t : Int) - k by omega, zpow_sub₀ two_ne_zero,
        zpow_natCast, zpow_natCast]
      push_cast
      rfl
    have hquot : (n : Rat) / 2 ^ k / ((2 ^ t : Nat) / 2 ^ k) = (n : Rat) / (2 ^ t : Nat) := by
      field_simp
    rw [roundRat, hunit, hquot, roundEven_div n (Nat.two_pow_pos t), roundBits, hplace]
    push_cast
    ring

end RoundRat

end ThinrAgent
