import ThinrAgent.Effects.Pool

/-!
# `ThinrAgent.Effects.Rules`: threads with a common invariant

`Rules` say which operations a thread may perform, and which results it may rely on, whatever it has
done before. `R.Obeys p Q` says that the program `p` performs only such operations when it gets
only such results, and that a value it returns satisfies `Q`.

`Pool.run_rules` is the rule for threads that share a world. An invariant of the world has to allow
the results (what a thread relies on) and has to be kept by the operations (what a thread
guarantees). Then it holds after every schedule.
-/

set_option autoImplicit false

namespace Effects

/-- What a thread may do, and what it may rely on. -/
structure Rules (I : Interface) where
  may : I.Op → Prop
  can : (o : I.Op) → I.Res o → Prop

namespace Rules

variable {I : Interface} {ε α β : Type}

/-- The program performs only what the rules allow when it gets only results that they promise, and
`Q` holds of the value. -/
def Obeys (R : Rules I) : Prog I ε α → (α → Prop) → Prop
  | .ret a, Q => Q a
  | .throw _, _ => True
  | .call o k, Q => R.may o ∧ ∀ r, R.can o r → R.Obeys (k r) Q

variable {R : Rules I} {Q : α → Prop}

/-- A sequence obeys when both parts do, the second for every value that the first can return. -/
theorem Obeys.bind {p : Prog I ε α} {f : α → Prog I ε β} {Q' : β → Prop} (hp : R.Obeys p Q)
    (hf : ∀ a, Q a → R.Obeys (f a) Q') : R.Obeys (p >>= f) Q' := by
  induction p with
  | ret a => exact hf a hp
  | throw e => trivial
  | call o k ih => exact ⟨hp.1, fun r hr => ih r (hp.2 r hr)⟩

/-- A choice, where each branch may use its condition. -/
theorem Obeys.ite {c : Prop} [Decidable c] {p q : Prog I ε α} (hp : c → R.Obeys p Q)
    (hq : ¬ c → R.Obeys q Q) : R.Obeys (if c then p else q) Q := by
  split
  · exact hp ‹c›
  · exact hq ‹¬ c›

end Rules

namespace Pool

variable {I : Interface} {ε α W C ι : Type} [DecidableEq ι] {M : ι → Machine I W C}
  {waits : I.Op → Option ι} {s : Pool I ε α W ι}

/-- What the rules keep holds after every schedule of threads that obey them. -/
theorem run_rules {R : Rules I} {Q : α → Prop} {J : W → Prop}
    (hexec : ∀ i w o c, J w → R.may o → R.can o ((M i).exec w o c).1 ∧ J ((M i).exec w o c).2)
    (ms : List (ι × C)) (h : ∀ i, R.Obeys (s.threads i) Q) (hw : J s.world) :
    J (run M waits ms s).world := by
  refine (run_inv (M := M) (P := fun _ _ => True)
    (J := fun s => (∀ i, R.Obeys (s.threads i) Q) ∧ J s.world)
    ?_ ⟨h, hw⟩ (meets_of_forall (fun _ _ _ => trivial) s)).2
  rintro s i c o k ⟨hobeys, hw⟩ - hi -
  have hthread := hobeys i
  rw [hi] at hthread
  obtain ⟨hcan, hw'⟩ := hexec i s.world o c hw hthread.1
  refine ⟨fun j => ?_, hw'⟩
  by_cases hj : j = i
  · subst hj
    rw [threads_perform_self]
    exact hthread.2 _ hcan
  · rw [threads_perform_ne hj]
    exact hobeys j

end Pool

end Effects
