import Mathlib.Order.Defs.PartialOrder
import ThinrAgent.Effects.CrashLogic
import ThinrAgent.Effects.Pool

/-!
# `ThinrAgent.Effects.Mutex`: threads with critical sections

A `Mutex` says when the lock of a pool is held, what holds of the world while it is free, what
holds while a thread is in its critical section, and which programs are outside of a section. A
ghost value records what the sections have done so far.

`X.Section M A i g p w` says of a thread in its section that every operation either stays in it or
releases the lock, with the resource of the lock restored. `section_ensure` gets this from a `cwp`
of the body, so a body is verified as if it ran alone. `Pool.run_mutex` is the rule for the pool.
It asks of a thread outside that it changes nothing while the lock is held (`Enters`).
-/

set_option autoImplicit false

namespace Effects

/-- A lock and the resource that it protects. -/
structure Mutex (I : Interface) (ε α W ι Γ : Type) [Preorder Γ] where
  held : W → Prop
  /-- The resource, while no thread is in its section. -/
  free : Γ → W → Prop
  /-- The resource, while the thread is in its section. -/
  inside : ι → Γ → W → Prop
  outside : ι → Γ → Prog I ε α → Prop
  outside_mono : ∀ {i g g' p}, g ≤ g' → outside i g p → outside i g' p

namespace Mutex

variable {I : Interface} {ε α W C ι Γ : Type} [Preorder Γ]

/-- The rest of the critical section of the thread `i`, which it has entered at `g`. -/
def Section (X : Mutex I ε α W ι Γ) (M : Machine I W C) (A : I.Op → C → Prop) (i : ι) (g : Γ) :
    Prog I ε α → W → Prop
  | .ret _, _ => False
  | .throw _, _ => False
  | .call o k, w => ∀ c, A o c →
      (X.held (M.exec w o c).2 ∧ X.inside i g (M.exec w o c).2 ∧
        Section X M A i g (k (M.exec w o c).1) (M.exec w o c).2) ∨
      (¬ X.held (M.exec w o c).2 ∧ ∃ g', g ≤ g' ∧ X.free g' (M.exec w o c).2 ∧
        X.outside i g' (k (M.exec w o c).1))

/-- A thread outside changes nothing while the lock is held. Otherwise it stays outside, or enters
its section. -/
def Enters (X : Mutex I ε α W ι Γ) (M : Machine I W C) (A : I.Op → C → Prop) : Prop :=
  ∀ i g o k c w, X.outside i g (.call o k) → A o c →
    (X.held w → (M.exec w o c).2 = w ∧ X.outside i g (k (M.exec w o c).1)) ∧
    (¬ X.held w → X.free g w →
      (¬ X.held (M.exec w o c).2 ∧ X.free g (M.exec w o c).2 ∧
        X.outside i g (k (M.exec w o c).1)) ∨
      (X.held (M.exec w o c).2 ∧ X.inside i g (M.exec w o c).2 ∧
        X.Section M A i g (k (M.exec w o c).1) (M.exec w o c).2))

variable {X : Mutex I ε α W ι Γ} {M : Machine I W C} {A : I.Op → C → Prop} {i : ι} {g : Γ} {w : W}

/-- A body that keeps the lock, and a last program that releases it. -/
theorem section_ensure {p : Prog I ε α} {fin : Prog I ε Unit}
    (h : cwp M A (fun v => X.held v ∧ X.inside i g v) p
      (fun r v => match r with
        | .ok a => X.Section M A i g (fin >>= fun _ => .ret a) v
        | .error e => X.Section M A i g (fin >>= fun _ => .throw e) v) w) :
    X.Section M A i g (p.ensure fin) w := by
  induction p generalizing w with
  | ret a => exact h.2
  | throw e => exact h.2
  | call o k ih =>
    intro c hc
    have hnext := h.2 c hc
    have hinv := cwp_inv hnext
    exact .inl ⟨hinv.1, hinv.2, ih _ hnext⟩

/-- The pool is in order: the lock is free and every thread is outside, or it is held and one thread
is in its section. -/
def Orderly (X : Mutex I ε α W ι Γ) (M : Machine I W C) (A : I.Op → C → Prop) (g : Γ)
    (s : Pool I ε α W ι) : Prop :=
  (¬ X.held s.world ∧ X.free g s.world ∧ ∀ i, X.outside i g (s.threads i)) ∨
  (X.held s.world ∧ ∃ i, X.inside i g s.world ∧ X.Section M A i g (s.threads i) s.world ∧
    ∀ j, j ≠ i → X.outside j g (s.threads j))

end Mutex

namespace Pool

open Mutex

variable {I : Interface} {ε α W C ι Γ : Type} [Preorder Γ] [DecidableEq ι]
  {X : Mutex I ε α W ι Γ} {M : Machine I W C} {A : I.Op → C → Prop} {g : Γ}
  {waits : I.Op → Option ι} {s : Pool I ε α W ι}

/-- One step of a thread keeps the order. -/
theorem orderly_perform (hX : X.Enters M A) (h : X.Orderly M A g s) {i : ι} {c : C} {o : I.Op}
    {k : I.Res o → Prog I ε α} (hi : s.threads i = .call o k) (hc : A o c) :
    ∃ g', g ≤ g' ∧ X.Orderly M A g' (s.perform (fun _ => M) i c o k) := by
  have others {g' : Γ} (hg : g ≤ g') {j : ι} (hj : j ≠ i)
      (hout : X.outside j g (s.threads j)) :
      X.outside j g' ((s.perform (fun _ => M) i c o k).threads j) := by
    rw [threads_perform_ne hj]
    exact X.outside_mono hg hout
  -- With the lock free the thread may stay outside or enter; with the lock held it is the holder
  -- or one that finds it held.
  rcases h with ⟨hfree, hres, hout⟩ | ⟨hheld, holder, hinside, hsection, hout⟩
  · have hthread := hout i
    rw [hi] at hthread
    rcases (hX i g o k c s.world hthread hc).2 hfree hres with ⟨hfree', hres', hout'⟩ |
      ⟨hheld', hinside', hsection'⟩
    · refine ⟨g, le_refl g, .inl ⟨hfree', hres', fun j => ?_⟩⟩
      by_cases hj : j = i
      · subst hj
        rw [threads_perform_self]
        exact hout'
      · exact others (le_refl g) hj (hout j)
    · refine ⟨g, le_refl g, .inr ⟨hheld', i, hinside', ?_, fun j hj => ?_⟩⟩
      case refine_2 => exact others (le_refl g) hj (hout j)
      rw [threads_perform_self]
      exact hsection'
  · by_cases hholder : i = holder
    · -- The thread in its section goes on, or leaves it.
      subst hholder
      rw [hi] at hsection
      rcases hsection c hc with ⟨hheld', hinside', hsection'⟩ | ⟨hfree', g', hg, hres', hout'⟩
      · refine ⟨g, le_refl g, .inr ⟨hheld', i, hinside', ?_, fun j hj => ?_⟩⟩
        case refine_2 => exact others (le_refl g) hj (hout j hj)
        rw [threads_perform_self]
        exact hsection'
      · refine ⟨g', hg, .inl ⟨hfree', hres', fun j => ?_⟩⟩
        by_cases hj : j = i
        · subst hj
          rw [threads_perform_self]
          exact hout'
        · exact others hg hj (hout j hj)
    · -- Another thread finds the lock held.
      have hthread := hout i hholder
      rw [hi] at hthread
      obtain ⟨hworld, hout'⟩ := (hX i g o k c s.world hthread hc).1 hheld
      have hworld' : (s.perform (fun _ => M) i c o k).world = s.world := hworld
      refine ⟨g, le_refl g, .inr ⟨by rwa [hworld'], holder, by rwa [hworld'], ?_, fun j hj => ?_⟩⟩
      · rw [hworld', threads_perform_ne (Ne.symm hholder)]
        exact hsection
      · by_cases hji : j = i
        · subst hji
          rw [threads_perform_self]
          exact hout'
        · exact others (le_refl g) hji (hout j hj)

/-- The rule: every schedule keeps the order of the threads, and the ghost only grows. -/
theorem run_mutex (hX : X.Enters M A) {ms : List (ι × C)} (h : X.Orderly M A g s)
    (hms : Admits (fun _ => M) waits A ms s) :
    ∃ g', g ≤ g' ∧ X.Orderly M A g' (run (fun _ => M) waits ms s) := by
  refine run_inv (J := fun s => ∃ g', g ≤ g' ∧ X.Orderly M A g' s) ?_ ⟨g, le_refl g, h⟩ hms
  intro s i c o k hs hA hi _
  obtain ⟨g', hg, horder⟩ := hs
  obtain ⟨g'', hg', horder'⟩ := orderly_perform hX horder hi (hA o k hi)
  exact ⟨g'', le_trans hg hg', horder'⟩

end Pool

end Effects
