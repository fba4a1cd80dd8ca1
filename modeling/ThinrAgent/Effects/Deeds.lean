import ThinrAgent.Effects.CrashLogic

/-!
# `ThinrAgent.Effects.Deeds`: postconditions about the way to the end

A `Deed` is one operation of a run, with the state before it and the answer it met. From
these its result and the state after it are computed. `Machine.deeds` lists the deeds of a
run, the first one first.

`twp M A p Q w` is a weakest precondition whose postcondition sees the deeds. `Q` holds of
the deeds, of the outcome and of the last state, whatever answers allowed by `A` the
environment gives. It is for results that compare the end of a program with what happened on
the way, such as which of its operations failed. The rules `twp_bind`, `twp_ensure` and
`twp_mono` compose such facts, and `twp_ends` is the soundness theorem.
-/

set_option autoImplicit false

namespace Effects

variable {I : Interface} {ε α β W C : Type}

/-- One operation of a run: the state it was called in, the operation, and the answer of the
environment. -/
structure Deed (I : Interface) (W C : Type) where
  before : W
  op : I.Op
  answer : C

namespace Deed

variable (M : Machine I W C) (d : Deed I W C)

/-- The result that the operation has had. -/
def result : I.Res d.op := (M.exec d.before d.op d.answer).1

/-- The state behind the operation. -/
def behind : W := (M.exec d.before d.op d.answer).2

end Deed

/-- The operations that the program performs against a list of answers, the first one first. -/
def Machine.deeds (M : Machine I W C) : List C → Prog I ε α × W → List (Deed I W C)
  | [], _ => []
  | c :: cs, (.call o k, w) => ⟨w, o, c⟩ :: M.deeds cs (M.step (.call o k, w) c)
  | _ :: _, (.ret _, _) => []
  | _ :: _, (.throw _, _) => []

/-- The weakest precondition of a postcondition `Q` about the deeds, the outcome and the last
state. -/
def twp (M : Machine I W C) (A : I.Op → C → Prop) :
    Prog I ε α → (List (Deed I W C) → Except ε α → W → Prop) → W → Prop
  | .ret a, Q, w => Q [] (.ok a) w
  | .throw e, Q, w => Q [] (.error e) w
  | .call o k, Q, w => ∀ c, A o c →
      twp M A (k (M.exec w o c).1) (fun ds => Q (⟨w, o, c⟩ :: ds)) (M.exec w o c).2

variable {M : Machine I W C} {A : I.Op → C → Prop}

/-- The rule of consequence: a weaker postcondition is met as well. -/
theorem twp_mono {p : Prog I ε α} {Q Q' : List (Deed I W C) → Except ε α → W → Prop} {w : W}
    (h : twp M A p Q w) (hQ : ∀ ds r v, Q ds r v → Q' ds r v) : twp M A p Q' w := by
  induction p generalizing w Q Q' with
  | ret a => exact hQ _ _ _ h
  | throw e => exact hQ _ _ _ h
  | call o k ih => exact fun c hc => ih _ (h c hc) fun ds => hQ (⟨w, o, c⟩ :: ds)

/-- Sequencing: the deeds of the second program come behind those of the first one. -/
theorem twp_bind {p : Prog I ε α} {f : α → Prog I ε β}
    {Q : List (Deed I W C) → Except ε β → W → Prop} {w : W}
    (h : twp M A p
      (fun ds r v => match r with
        | .ok a => twp M A (f a) (fun ds' => Q (ds ++ ds')) v
        | .error e => Q ds (.error e) v) w) :
    twp M A (p >>= f) Q w := by
  induction p generalizing w Q with
  | ret a => exact h
  | throw e => exact h
  | call o k ih => exact fun c hc => ih _ (h c hc)

/-- The rule for `ensure`: the deeds of the last program come behind those of a program that has
returned, and behind those of one that has thrown. -/
theorem twp_ensure {fin : Prog I ε Unit} {p : Prog I ε α}
    {Q : List (Deed I W C) → Except ε α → W → Prop} {w : W}
    (h : twp M A p
      (fun ds r v => twp M A fin
        (fun ds' r' u => match r' with
          | .ok () => Q (ds ++ ds') r u
          | .error e => Q (ds ++ ds') (.error e) u) v) w) :
    twp M A (p.ensure fin) Q w := by
  induction p generalizing w Q with
  | ret a =>
    refine twp_bind (twp_mono h fun ds r v hr => ?_)
    cases r with
    | ok u => simpa [twp] using hr
    | error e => exact hr
  | throw e =>
    refine twp_bind (twp_mono h fun ds r v hr => ?_)
    cases r with
    | ok u => simpa [twp] using hr
    | error e' => exact hr
  | call o k ih => exact fun c hc => ih _ (h c hc)

/-- Soundness: a run that has come to its end satisfies the postcondition, with the deeds it has
performed. -/
theorem twp_ends {p : Prog I ε α} {Q : List (Deed I W C) → Except ε α → W → Prop} {w : W}
    (cs : List C) (h : twp M A p Q w) (hcs : M.Admits A cs (p, w)) {r : Except ε α}
    (hr : (M.after cs (p, w)).1.result = some r) :
    Q (M.deeds cs (p, w)) r (M.after cs (p, w)).2 := by
  induction cs generalizing p w Q with
  | nil =>
    cases p with
    | ret a =>
      cases hr
      exact h
    | throw e =>
      cases hr
      exact h
    | call o k => cases hr
  | cons c cs ih =>
    cases p with
    | ret a =>
      rw [M.after_of_done (c :: cs) (p := .ret a) trivial w] at hr ⊢
      cases hr
      exact h
    | throw e =>
      rw [M.after_of_done (c :: cs) (p := .throw e) trivial w] at hr ⊢
      cases hr
      exact h
    | call o k => exact ih (h c hcs.1) hcs.2 hr

end Effects
