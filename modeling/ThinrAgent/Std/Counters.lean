import Mathlib.Algebra.BigOperators.Group.Finset.Piecewise

/-!
# `ThinrAgent.Std.Counters`: the sum of a changing set of counters

`Counters` is a set of counters, each with its value. Between two samples every counter that stays
grows, some appear and some vanish. The sum grows by what is gained and loses what has vanished
(`total_add_vanished`). `wrapped_le_iff` is about their difference modulo a power of two: it is at
most the gain exactly when what has vanished, modulo that power, is.
-/

set_option autoImplicit false

namespace ThinrAgent

/-- A finite set of counters, each with a value. The value of a counter that is not there does not
matter. -/
structure Counters (ι : Type) where
  present : Finset ι
  value : ι → Nat

namespace Counters

variable {ι : Type}

/-- The sum of the counters that are there. -/
def total (c : Counters ι) : Nat := ∑ i ∈ c.present, c.value i

/-- A counter of both samples does not decrease. -/
def Grows (c d : Counters ι) : Prop := ∀ i ∈ c.present, i ∈ d.present → c.value i ≤ d.value i

variable [DecidableEq ι]

instance (c d : Counters ι) : Decidable (c.Grows d) :=
  inferInstanceAs (Decidable (∀ i ∈ c.present, i ∈ d.present → c.value i ≤ d.value i))

/-- The increments of the counters of both samples, and the new counters. -/
def gained (c d : Counters ι) : Nat :=
  ∑ i ∈ d.present ∩ c.present, (d.value i - c.value i) + ∑ i ∈ d.present \ c.present, d.value i

/-- What the counters that are gone had counted: the sum of their last values. -/
def vanished (c d : Counters ι) : Nat := ∑ i ∈ c.present \ d.present, c.value i

/-- The sum grows by the gain and loses what has vanished. -/
theorem total_add_vanished {c d : Counters ι} (h : c.Grows d) :
    d.total + vanished c d = gained c d + c.total := by
  have hd := Finset.sum_inter_add_sum_sdiff d.present c.present d.value
  have hc := Finset.sum_inter_add_sum_sdiff c.present d.present c.value
  have hboth : ∑ i ∈ d.present ∩ c.present, (d.value i - c.value i) +
      ∑ i ∈ d.present ∩ c.present, c.value i = ∑ i ∈ d.present ∩ c.present, d.value i := by
    rw [← Finset.sum_add_distrib]
    refine Finset.sum_congr rfl fun i hi => Nat.sub_add_cancel ?_
    exact h i (Finset.mem_inter.mp hi).2 (Finset.mem_inter.mp hi).1
  rw [Finset.inter_comm c.present] at hc
  unfold total vanished gained
  omega

end Counters

/-- A difference modulo `w` is at most what was added exactly when what was taken is, modulo `w`. -/
theorem wrapped_le_iff {w : Nat} (hw : 0 < w) (gain loss : Nat) :
    (gain + (w - loss % w)) % w ≤ gain ↔ loss % w ≤ gain := by
  have hlt := Nat.mod_lt loss hw
  rcases Nat.lt_or_ge gain (loss % w) with hless | hge
  · rw [Nat.mod_eq_of_lt (by omega)]
    omega
  · rw [show gain + (w - loss % w) = gain - loss % w + w by omega, Nat.add_mod_right]
    have := Nat.mod_le (gain - loss % w) w
    omega

end ThinrAgent
