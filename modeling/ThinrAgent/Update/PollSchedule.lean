import ThinrAgent.Update.DeviceFraction

/-!
# `ThinrAgent.Update.PollSchedule`: the cadence of the automatic poll

`update/poll_schedule.hpp`, in the arithmetic of a `double`. The values are nonnegative and far
from both ends of the range of exponents, so an operation is the exact one, rounded to 53 bits. The
delays of the source are seconds, and the poll thread converts them to whole milliseconds
(`millis`). `normalPollDelay_range` says that the jitter is what its comment says, to the
millisecond, whatever the rounding does on the way.
-/

set_option autoImplicit false

namespace ThinrAgent

namespace FloatValue

/-- An integer as a double, which needs no rounding for the ones that occur here. -/
def ofNat (n : Nat) : FloatValue := ⟨n, 0⟩

/-- The product of two values, rounded to 53 bits. -/
def mul (a b : FloatValue) : FloatValue := ⟨roundBits 53 (a.num * b.num), a.exp + b.exp⟩

/-- The sum of two values over one denominator, rounded to 53 bits. -/
def add (a b : FloatValue) : FloatValue :=
  ⟨roundBits 53 (a.num * 2 ^ b.exp + b.num * 2 ^ a.exp), a.exp + b.exp⟩

/-- `std::clamp(u, 0.0, 1.0)` for a value that is not negative: a value of one or more becomes
one. -/
def clampOne (u : FloatValue) : FloatValue := if u.geOne then ofNat 1 else u

/-- The conversion to `int64_t`, which cuts the fraction off. -/
def truncate (f : FloatValue) : Nat := f.num / 2 ^ f.exp

/-- The literal `0.9` as a double: the nearest multiple of `2 ^ -53`. -/
def nineTenths : FloatValue := ⟨roundDiv (9 * 2 ^ 53) 10, 53⟩

/-- The literal `0.2` as a double: the nearest multiple of `2 ^ -55`. -/
def oneFifth : FloatValue := ⟨roundDiv (2 * 2 ^ 55) 10, 55⟩

/-- `a <= b` for two values, over a common denominator and without a rounding. -/
def Le (a b : FloatValue) : Prop := a.num * 2 ^ b.exp ≤ b.num * 2 ^ a.exp

section Order

variable {a b c d : FloatValue}

/-- Every value is at most itself. -/
theorem Le.refl (a : FloatValue) : Le a a := Nat.le_refl _

/-- After the clamp a value is at most one. -/
theorem clampOne_le (u : FloatValue) : Le u.clampOne (ofNat 1) := by
  unfold clampOne
  split
  · exact Le.refl _
  · rename_i h
    have hlt : ¬ 2 ^ u.exp ≤ u.num := by simpa [geOne] using h
    show u.num * 2 ^ 0 ≤ 1 * 2 ^ u.exp
    omega

/-- The values are nonnegative, so zero is at most each of them. -/
theorem zero_le (a : FloatValue) : Le (ofNat 0) a := by
  show 0 * 2 ^ a.exp ≤ a.num * 2 ^ 0
  omega

/-- Rounding keeps the comparison of two values, whatever their exponents. -/
theorem roundBits_mul_le {m n k l : Nat} (h : m * 2 ^ l ≤ n * 2 ^ k) :
    roundBits 53 m * 2 ^ l ≤ roundBits 53 n * 2 ^ k := by
  rw [← roundBits_mul_two_pow, ← roundBits_mul_two_pow]
  exact roundBits_mono (by decide) h

/-- A product grows with its factors, also after the rounding. -/
theorem Le.mul (hab : Le a b) (hcd : Le c d) : Le (a.mul c) (b.mul d) := by
  refine roundBits_mul_le ?_
  calc a.num * c.num * 2 ^ (b.exp + d.exp)
      = a.num * 2 ^ b.exp * (c.num * 2 ^ d.exp) := by rw [pow_add]; ring
    _ ≤ b.num * 2 ^ a.exp * (d.num * 2 ^ c.exp) := Nat.mul_le_mul hab hcd
    _ = b.num * d.num * 2 ^ (a.exp + c.exp) := by rw [pow_add]; ring

/-- A sum grows with its terms, also after the rounding. -/
theorem Le.add (hab : Le a b) (hcd : Le c d) : Le (a.add c) (b.add d) := by
  refine roundBits_mul_le ?_
  calc (a.num * 2 ^ c.exp + c.num * 2 ^ a.exp) * 2 ^ (b.exp + d.exp)
      = a.num * 2 ^ b.exp * 2 ^ (c.exp + d.exp) + c.num * 2 ^ d.exp * 2 ^ (a.exp + b.exp) := by
        simp only [pow_add]; ring
    _ ≤ b.num * 2 ^ a.exp * 2 ^ (c.exp + d.exp) + d.num * 2 ^ c.exp * 2 ^ (a.exp + b.exp) :=
        Nat.add_le_add (Nat.mul_le_mul_right _ hab) (Nat.mul_le_mul_right _ hcd)
    _ = (b.num * 2 ^ d.exp + d.num * 2 ^ b.exp) * 2 ^ (a.exp + c.exp) := by
        simp only [pow_add]; ring

/-- The conversion to an integer keeps a comparison. -/
theorem Le.truncate (h : Le a b) : a.truncate ≤ b.truncate := by
  have ha := Nat.two_pow_pos a.exp
  have hb := Nat.two_pow_pos b.exp
  show a.num / 2 ^ a.exp ≤ b.num / 2 ^ b.exp
  rw [Nat.le_div_iff_mul_le hb]
  refine Nat.le_of_mul_le_mul_right ?_ ha
  calc a.num / 2 ^ a.exp * 2 ^ b.exp * 2 ^ a.exp
      = a.num / 2 ^ a.exp * 2 ^ a.exp * 2 ^ b.exp := by ring
    _ ≤ a.num * 2 ^ b.exp := Nat.mul_le_mul_right _ (Nat.div_mul_le_self _ _)
    _ ≤ b.num * 2 ^ a.exp := h

end Order

end FloatValue

open FloatValue

/-- First poll after start: uniform in [0, 30 min]. -/
def firstPollDelayS (u : FloatValue) : FloatValue :=
  (u.clampOne.mul (ofNat 30)).mul (ofNat 60)

/-- `check_interval_h` hours with a jitter of ten percent. -/
def normalPollDelayS (checkIntervalH : Int32) (u : FloatValue) : FloatValue :=
  let jitter := nineTenths.add (oneFifth.mul u.clampOne)
  ((ofNat checkIntervalH.toInt.toNat).mul (ofNat 3600)).mul jitter

/-- The seconds until the next try after a deferral for an active session. -/
def DEFERRED_RETRY_DELAY_S : Nat := 10 * 60

/-- A delay in whole milliseconds, as the wait is given it. -/
def millis (delayS : FloatValue) : Nat := (delayS.mul (ofNat 1000)).truncate

/-- The first poll is in the first half hour. -/
theorem firstPollDelay_le (u : FloatValue) : millis (firstPollDelayS u) ≤ 30 * 60 * 1000 := by
  have hle : Le ((firstPollDelayS u).mul (ofNat 1000))
      ((((ofNat 1).mul (ofNat 30)).mul (ofNat 60)).mul (ofNat 1000)) :=
    (((clampOne_le u).mul (.refl _)).mul (.refl _)).mul (.refl _)
  refine hle.truncate.trans ?_
  decide

/-- A poll that was deferred is tried again after ten minutes. -/
theorem deferredRetryDelay : millis (ofNat DEFERRED_RETRY_DELAY_S) = 10 * 60 * 1000 := by decide

/-- The delays of both ends of the jitter, for every interval. -/
theorem jitter_ends : ∀ h < 169, 3240000 * h ≤
      ((((ofNat h).mul (ofNat 3600)).mul (nineTenths.add (oneFifth.mul (ofNat 0)))).mul
        (ofNat 1000)).truncate ∧
    ((((ofNat h).mul (ofNat 3600)).mul (nineTenths.add (oneFifth.mul (ofNat 1)))).mul
        (ofNat 1000)).truncate ≤ 3960000 * h := by
  decide +kernel

/-- The normal delay is within ten percent of the interval, for every interval that the settings
can have. -/
theorem normalPollDelay_range {checkIntervalH : Int32} {h : Nat} (hh : checkIntervalH.toInt = h)
    (hmax : h ≤ 168) (u : FloatValue) :
    3240000 * h ≤ millis (normalPollDelayS checkIntervalH u) ∧
      millis (normalPollDelayS checkIntervalH u) ≤ 3960000 * h := by
  have hnat : checkIntervalH.toInt.toNat = h := by omega
  obtain ⟨hlow, hhigh⟩ := jitter_ends h (by omega)
  have hmono {v w : FloatValue} (hvw : Le v w) :
      Le ((((ofNat h).mul (ofNat 3600)).mul (nineTenths.add (oneFifth.mul v))).mul (ofNat 1000))
        ((((ofNat h).mul (ofNat 3600)).mul (nineTenths.add (oneFifth.mul w))).mul (ofNat 1000)) :=
    ((Le.refl _).mul ((Le.refl _).add ((Le.refl _).mul hvw))).mul (.refl _)
  unfold millis normalPollDelayS
  rw [hnat]
  exact ⟨hlow.trans (hmono (zero_le _)).truncate, (hmono (clampOne_le u)).truncate.trans hhigh⟩

end ThinrAgent
