import Mathlib.Tactic.Ring

/-!
# `ThinrAgent.Std.Rounding`: rounding a natural number to a number of bits

`roundBits p n` is the number with `p` significant bits next to `n`, and the even one of two that
are as near. A floating-point number without a bound on its exponent has such a mantissa. The
rounding keeps what has at most `p` bits (`roundBits_eq_self`) and the order (`roundBits_mono`).
It stays within the bits of the number or reaches the next power of two, and
`roundBits_lt_two_pow_iff` says for which numbers it stays below. A number times a power of two is
rounded to the same mantissa (`roundBits_mul_two_pow`).
-/

set_option autoImplicit false

namespace ThinrAgent

/-- `n / unit` to the nearest integer, to the even one of two. -/
def roundDiv (n unit : Nat) : Nat :=
  if 2 * (n % unit) < unit ∨ (2 * (n % unit) = unit ∧ n / unit % 2 = 0) then n / unit
  else n / unit + 1

/-- The last place of `n` when it has `p` significant bits. -/
def lastPlace (p n : Nat) : Nat := 2 ^ (n.log2 + 1 - p)

/-- The number `n` rounded to `p` significant bits, to the nearest and ties to the even one. -/
def roundBits (p n : Nat) : Nat := roundDiv n (lastPlace p n) * lastPlace p n

section RoundDiv
variable {m n unit k : Nat}

/-- The nearest integer is not below the quotient rounded down. -/
theorem div_le_roundDiv (n unit : Nat) : n / unit ≤ roundDiv n unit := by
  unfold roundDiv
  split <;> omega

/-- The nearest integer is at most one above the quotient rounded down. -/
theorem roundDiv_le (n unit : Nat) : roundDiv n unit ≤ n / unit + 1 := by
  unfold roundDiv
  split <;> omega

/-- A division by one is exact, so there is nothing to round. -/
theorem roundDiv_one (n : Nat) : roundDiv n 1 = n := by
  simp [roundDiv, Nat.mod_one]

/-- A number that is not above a multiple is rounded to no more. -/
theorem roundDiv_le_of_le (hunit : 0 < unit) (h : n ≤ k * unit) : roundDiv n unit ≤ k := by
  rcases Nat.lt_or_ge (n / unit) k with hlt | hge
  · have := roundDiv_le n unit
    omega
  · -- Here `n` is the multiple itself.
    have hdiv := Nat.div_add_mod n unit
    have hle : k * unit ≤ n / unit * unit := Nat.mul_le_mul_right unit hge
    rw [Nat.mul_comm] at hdiv
    have hmod : n % unit = 0 := by omega
    have hquot : n / unit ≤ k := by
      have := Nat.div_le_div_right (c := unit) h
      rwa [Nat.mul_div_cancel _ hunit] at this
    unfold roundDiv
    rw [if_pos (by omega)]
    exact hquot

/-- A larger number is not rounded to a smaller quotient. -/
theorem roundDiv_mono (h : m ≤ n) : roundDiv m unit ≤ roundDiv n unit := by
  rcases Nat.lt_or_ge (m / unit) (n / unit) with hlt | hge
  · have := roundDiv_le m unit
    have := div_le_roundDiv n unit
    omega
  · -- Both are between the same two multiples.
    have hdiv : m / unit = n / unit := Nat.le_antisymm (Nat.div_le_div_right h) hge
    have hm := Nat.div_add_mod m unit
    have hn := Nat.div_add_mod n unit
    rw [hdiv] at hm
    have hmod : m % unit ≤ n % unit := by omega
    unfold roundDiv
    rw [hdiv]
    split <;> split <;> omega

/-- A common factor of both numbers plays no part. -/
theorem roundDiv_mul (n unit : Nat) (hk : 0 < k) : roundDiv (n * k) (unit * k) =
    roundDiv n unit := by
  have hmod : n * k % (unit * k) = n % unit * k := Nat.mul_mod_mul_right ..
  have hdiv : n * k / (unit * k) = n / unit := Nat.mul_div_mul_right _ _ hk
  have hlt : 2 * (n % unit * k) < unit * k ↔ 2 * (n % unit) < unit := by
    rw [← Nat.mul_assoc]
    exact Nat.mul_lt_mul_right hk
  have heq : 2 * (n % unit * k) = unit * k ↔ 2 * (n % unit) = unit := by
    rw [← Nat.mul_assoc]
    exact Nat.mul_left_inj hk.ne'
  unfold roundDiv
  simp only [hmod, hdiv, hlt, heq]

end RoundDiv

section RoundBits
variable {p m n k : Nat}

/-- The last place is a power of two. -/
theorem lastPlace_pos (p n : Nat) : 0 < lastPlace p n := Nat.two_pow_pos _

/-- A number with at most `p` bits is kept. -/
theorem roundBits_eq_self (h : n < 2 ^ p) : roundBits p n = n := by
  rcases Nat.eq_zero_or_pos n with rfl | hpos
  · have hdiv : roundDiv 0 (lastPlace p 0) = 0 := by
      have := lastPlace_pos p 0
      rw [roundDiv, Nat.zero_mod, Nat.zero_div, if_pos (by omega)]
    rw [roundBits, hdiv, Nat.zero_mul]
  · have hlog : n.log2 < p := (Nat.log2_lt (by omega)).mpr h
    have hplace : lastPlace p n = 1 := by
      rw [lastPlace, show n.log2 + 1 - p = 0 by omega, pow_zero]
    rw [roundBits, hplace, roundDiv_one, Nat.mul_one]

/-- The rounding of a number does not pass a power of two. -/
theorem roundBits_le_two_pow (hp : 0 < p) (h : n ≤ 2 ^ k) : roundBits p n ≤ 2 ^ k := by
  rcases Nat.lt_or_ge n (2 ^ k) with hlt | hge
  · rcases Nat.lt_or_ge n (2 ^ p) with hsmall | hlarge
    · rw [roundBits_eq_self hsmall]
      exact h
    · have hpos : n ≠ 0 := by
        have := Nat.two_pow_pos p
        omega
      have hlog : n.log2 < k := (Nat.log2_lt hpos).mpr hlt
      have hsplit : 2 ^ k = 2 ^ (k - (n.log2 + 1 - p)) * lastPlace p n := by
        rw [lastPlace, ← pow_add]
        congr 1
        omega
      rw [roundBits, hsplit]
      exact Nat.mul_le_mul_right _ (roundDiv_le_of_le (lastPlace_pos p n) (by omega))
  · obtain rfl : n = 2 ^ k := Nat.le_antisymm h hge
    -- The power itself is a multiple of its last place.
    have hlog : (2 ^ k).log2 = k := Nat.log2_two_pow
    have hsplit : 2 ^ k = 2 ^ (k - (k + 1 - p)) * lastPlace p (2 ^ k) := by
      rw [lastPlace, hlog, ← pow_add]
      congr 1
      omega
    rw [roundBits]
    conv_rhs => rw [hsplit]
    refine Nat.mul_le_mul_right _ (roundDiv_le_of_le (lastPlace_pos _ _) ?_)
    exact hsplit.le

/-- A number is not rounded below its highest bit. -/
theorem two_pow_log2_le_roundBits (hp : 0 < p) (hn : n ≠ 0) : 2 ^ n.log2 ≤ roundBits p n := by
  rcases Nat.lt_or_ge n (2 ^ p) with hsmall | hlarge
  · rw [roundBits_eq_self hsmall]
    exact Nat.log2_self_le hn
  · have hlog : p ≤ n.log2 := (Nat.le_log2 hn).mpr hlarge
    have hsplit : 2 ^ n.log2 = 2 ^ (n.log2 - (n.log2 + 1 - p)) * lastPlace p n := by
      rw [lastPlace, ← pow_add]
      congr 1
      omega
    rw [roundBits]
    conv_lhs => rw [hsplit]
    refine Nat.mul_le_mul_right _ ((Nat.le_div_iff_mul_le (lastPlace_pos p n)).mpr ?_ |>.trans
      (div_le_roundDiv n _))
    rw [← hsplit]
    exact Nat.log2_self_le hn

/-- The rounding of a number is scaled with it. -/
theorem roundBits_mul_two_pow (m k : Nat) : roundBits p (m * 2 ^ k) = roundBits p m * 2 ^ k := by
  have hpow := Nat.two_pow_pos k
  rcases Nat.eq_zero_or_pos m with rfl | hm
  · rw [Nat.zero_mul, roundBits_eq_self (Nat.two_pow_pos p), Nat.zero_mul]
  have hlog : (m * 2 ^ k).log2 = m.log2 + k := by
    rw [Nat.log2_eq_iff (Nat.mul_pos hm hpow).ne', pow_add, Nat.add_right_comm, pow_add]
    exact ⟨Nat.mul_le_mul_right _ (Nat.log2_self_le hm.ne'),
      Nat.mul_lt_mul_of_pos_right Nat.lt_log2_self hpow⟩
  rcases Nat.lt_or_ge m (2 ^ p) with hsmall | hlarge
  · -- The number is kept, and the last place divides the scaled one.
    have hbits : m.log2 < p := (Nat.log2_lt hm.ne').mpr hsmall
    have hsplit : m * 2 ^ k =
        m * 2 ^ (k - (m.log2 + k + 1 - p)) * lastPlace p (m * 2 ^ k) := by
      rw [lastPlace, hlog, Nat.mul_assoc, ← pow_add]
      congr 2
      omega
    rw [roundBits_eq_self hsmall, roundBits]
    conv_lhs => lhs; lhs; rw [hsplit]
    conv_lhs => lhs; rhs; rw [← Nat.one_mul (lastPlace p (m * 2 ^ k))]
    rw [roundDiv_mul _ _ (lastPlace_pos _ _), roundDiv_one]
    exact hsplit.symm
  -- The last place is scaled with the number, and the quotient stays the same.
  · have hbits : p ≤ m.log2 := (Nat.le_log2 hm.ne').mpr hlarge
    have hplace : lastPlace p (m * 2 ^ k) = lastPlace p m * 2 ^ k := by
      rw [lastPlace, lastPlace, hlog, ← pow_add]
      congr 1
      omega
    rw [roundBits, hplace, roundDiv_mul _ _ hpow, roundBits, Nat.mul_assoc]

/-- The rounding keeps the order of two numbers, which it may make equal. -/
theorem roundBits_mono (hp : 0 < p) (h : m ≤ n) : roundBits p m ≤ roundBits p n := by
  rcases Nat.eq_zero_or_pos m with rfl | hm
  · rw [roundBits_eq_self (Nat.two_pow_pos p)]
    exact Nat.zero_le _
  · have hlog : m.log2 ≤ n.log2 := (Nat.le_log2 (by omega)).mpr
      ((Nat.log2_self_le (by omega)).trans h)
    rcases Nat.lt_or_ge m.log2 n.log2 with hlt | hge
    · -- A power of two is between them.
      calc roundBits p m ≤ 2 ^ (m.log2 + 1) := roundBits_le_two_pow hp Nat.lt_log2_self.le
        _ ≤ 2 ^ n.log2 := Nat.pow_le_pow_right (by omega) hlt
        _ ≤ roundBits p n := two_pow_log2_le_roundBits hp (by omega)
    · have hplace : lastPlace p m = lastPlace p n := by
        rw [lastPlace, lastPlace, Nat.le_antisymm hlog hge]
      rw [roundBits, roundBits, hplace]
      exact Nat.mul_le_mul_right _ (roundDiv_mono h)

/-- A number below a power of two is rounded to that power from half a last place below it on. -/
theorem roundBits_lt_two_pow_iff (hp : 0 < p) (hk : p < k) (hn : n < 2 ^ k) :
    roundBits p n < 2 ^ k ↔ n < 2 ^ k - 2 ^ (k - p - 1) := by
  have hhalf : 2 ^ (k - p) = 2 * 2 ^ (k - p - 1) := by
    rw [← pow_succ']
    congr 1
    omega
  have hwhole : 2 ^ k = 2 ^ p * 2 ^ (k - p) := by
    rw [← pow_add]
    congr 1
    omega
  have hpos := Nat.two_pow_pos (k - p - 1)
  have hbits := Nat.two_pow_pos p
  rcases Nat.lt_or_ge n (2 ^ (k - 1)) with hsmall | hlarge
  · -- The number has fewer bits, so it is rounded to a lower power at most.
    have hstep : 2 ^ k = 2 * 2 ^ (k - 1) := by
      rw [← pow_succ']
      congr 1
      omega
    have hround := roundBits_le_two_pow hp hsmall.le
    have hle : 2 ^ (k - p - 1) ≤ 2 ^ (k - 1) := Nat.pow_le_pow_right (by omega) (by omega)
    omega
  · have hpos' : n ≠ 0 := by
      have := Nat.two_pow_pos (k - 1)
      omega
    -- The number has `k` bits, so its last place is fixed and rounding is a division by it.
    have hlog : n.log2 = k - 1 := by
      rw [Nat.log2_eq_iff hpos']
      refine ⟨hlarge, ?_⟩
      rwa [show k - 1 + 1 = k by omega]
    have hplace : lastPlace p n = 2 ^ (k - p) := by
      rw [lastPlace, hlog]
      congr 1
      omega
    have hunit : 0 < 2 ^ (k - p) := Nat.two_pow_pos _
    have hiff : roundBits p n < 2 ^ k ↔ roundDiv n (2 ^ (k - p)) < 2 ^ p := by
      rw [roundBits, hplace, hwhole]
      exact Nat.mul_lt_mul_right hunit
    have hdiv := Nat.div_add_mod n (2 ^ (k - p))
    have hmod := Nat.mod_lt n hunit
    have hquot : n / 2 ^ (k - p) < 2 ^ p := by
      rw [Nat.div_lt_iff_lt_mul hunit]
      omega
    have hodd : (2 ^ p - 1) % 2 = 1 := by
      obtain ⟨q, rfl⟩ := Nat.exists_eq_succ_of_ne_zero hp.ne'
      rw [Nat.succ_eq_add_one, pow_succ]
      have := Nat.two_pow_pos q
      omega
    rw [hiff]
    by_cases hlast : n / 2 ^ (k - p) = 2 ^ p - 1
    · -- In the last unit below the power, half a unit decides.
      have hvalue : 2 ^ k - 2 ^ (k - p) + n % 2 ^ (k - p) = n := by
        rw [hlast, Nat.mul_sub, Nat.mul_one, Nat.mul_comm, ← hwhole] at hdiv
        exact hdiv
      have hle : 2 ^ (k - p) ≤ 2 ^ k := Nat.pow_le_pow_right (by omega) (by omega)
      unfold roundDiv
      split <;> omega
    -- Below the last unit both sides hold.
    · have hround := roundDiv_le n (2 ^ (k - p))
      have hbelow : n < (2 ^ p - 1) * 2 ^ (k - p) := by
        rw [← Nat.div_lt_iff_lt_mul hunit]
        omega
      rw [Nat.sub_mul, Nat.one_mul, ← hwhole] at hbelow
      omega

end RoundBits

end ThinrAgent
