import ThinrAgent.Effects.CrashLogic

/-!
# `ThinrAgent.Effects.GiveUp`: programs that give up, and the runs of sequences

A program that needs an operation to work ends in a failure when it does not. `Ends F p` says that
every outcome of `p` satisfies `F`, whatever results it gets. `GivesUp M A F p` says that after an
answer that `A` does not allow only such outcomes are left. So a run with another outcome has had
allowed answers only (`admits_of_givesUp`): an outcome tells what the environment has answered.

`Strays M A Q p` says it of the state as well: after an answer that `A` does not allow, a run ends
with `Q`. Such runs are what a weakest precondition against `A` says nothing about.

`may M A p Q` is the weakest precondition for one run: there are answers that `A` allows with which
`p` returns and ends with `Q`.

`after_bind_done` and `after_tryCatch_done` split a complete run of a sequence, or of a program
with a handler, into its parts.
-/

set_option autoImplicit false

namespace Effects

variable {I : Interface} {ε α β W C : Type}

/-- Every outcome of the program satisfies `F`, whatever the answers on the way to it are. -/
def Ends (F : Except ε α → Prop) : Prog I ε α → Prop
  | .ret a => F (.ok a)
  | .throw e => F (.error e)
  | .call _ k => ∀ r, Ends F (k r)

section Ends

/-- Every program ends in some outcome or not at all. -/
theorem ends_true (p : Prog I ε α) : Ends (fun _ => True) p := by
  induction p with
  | ret a => trivial
  | throw e => trivial
  | call o k ih => exact ih

/-- The outcomes of a sequence are the errors of the first part and the outcomes of the second. -/
theorem Ends.bind {F : Except ε α → Prop} {F' : Except ε β → Prop} {p : Prog I ε α}
    {f : α → Prog I ε β} (hp : Ends F p) (hok : ∀ a, F (.ok a) → Ends F' (f a))
    (herror : ∀ e, F (.error e) → F' (.error e)) : Ends F' (p >>= f) := by
  induction p with
  | ret a => exact hok a hp
  | throw e => exact herror e hp
  | call o k ih => exact fun r => ih r (hp r)

/-- The outcomes of a program with a handler are its values and the outcomes of the handler. -/
theorem Ends.tryCatch {F F' : Except ε α → Prop} {p : Prog I ε α} {h : ε → Prog I ε α}
    (hp : Ends F p) (hok : ∀ a, F (.ok a) → F' (.ok a))
    (herror : ∀ e, F (.error e) → Ends F' (h e)) : Ends F' (p.tryCatch h) := by
  induction p with
  | ret a => exact hok a hp
  | throw e => exact herror e hp
  | call o k ih => exact fun r => ih r (hp r)

/-- A complete run has one of the outcomes, whatever the machine and its answers. -/
theorem Ends.result {F : Except ε α → Prop} {M : Machine I W C} {cs : List C} {p : Prog I ε α}
    {w : W} {r : Except ε α} (hp : Ends F p) (hr : (M.after cs (p, w)).1.result = some r) :
    F r := by
  induction cs generalizing p w with
  | nil =>
    cases p with
    | ret a => cases hr; exact hp
    | throw e => cases hr; exact hp
    | call o k => cases hr
  | cons c cs ih =>
    cases p with
    | ret a => exact ih hp hr
    | throw e => exact ih hp hr
    | call o k => exact ih (hp _) hr

end Ends

/-- After an answer that `A` does not allow, every outcome satisfies `F`. -/
def GivesUp (M : Machine I W C) (A : I.Op → C → Prop) (F : Except ε α → Prop) :
    Prog I ε α → Prop
  | .ret _ => True
  | .throw _ => True
  | .call o k => ∀ w c, (¬ A o c → Ends F (k (M.exec w o c).1)) ∧
      GivesUp M A F (k (M.exec w o c).1)

section GivesUp

variable {M : Machine I W C} {A : I.Op → C → Prop} {F : Except ε α → Prop}

/-- The answers to a run with another outcome are allowed. -/
theorem admits_of_givesUp {p : Prog I ε α} (hp : GivesUp M A F p) {cs : List C} {w : W}
    {r : Except ε α} (hr : (M.after cs (p, w)).1.result = some r) (hF : ¬ F r) :
    M.Admits A cs (p, w) := by
  induction cs generalizing p w with
  | nil => trivial
  | cons c cs ih =>
    cases p with
    | ret a => trivial
    | throw e => trivial
    | call o k =>
      obtain ⟨hends, hrest⟩ := hp w c
      refine ⟨?_, ih hrest hr⟩
      by_contra hc
      exact hF ((hends hc).result hr)

/-- An operation that the environment may answer as it likes. -/
theorem givesUp_call {o : I.Op} {k : I.Res o → Prog I ε α} (ho : ∀ c, A o c)
    (hk : ∀ r, GivesUp M A F (k r)) : GivesUp M A F (.call o k) :=
  fun _ c => ⟨fun hc => absurd (ho c) hc, hk _⟩

/-- A sequence gives up when both parts do. After an answer that is not allowed in the first part,
the second runs on to a failure too. -/
theorem GivesUp.bind {F' : Except ε β → Prop} {p : Prog I ε α} {f : α → Prog I ε β}
    (hp : GivesUp M A F p) (hok : ∀ a, F (.ok a) → Ends F' (f a))
    (herror : ∀ e, F (.error e) → F' (.error e)) (hf : ∀ a, GivesUp M A F' (f a)) :
    GivesUp M A F' (p >>= f) := by
  induction p with
  | ret a => exact hf a
  | throw e => trivial
  | call o k ih =>
    exact fun w c => ⟨fun hc => ((hp w c).1 hc).bind hok herror, ih _ (hp w c).2⟩

/-- A program with a handler gives up when both do. The handler must not turn the failure into
another outcome. -/
theorem GivesUp.tryCatch {F' : Except ε α → Prop} {p : Prog I ε α} {h : ε → Prog I ε α}
    (hp : GivesUp M A F p) (hok : ∀ a, F (.ok a) → F' (.ok a))
    (herror : ∀ e, F (.error e) → Ends F' (h e)) (hh : ∀ e, GivesUp M A F' (h e)) :
    GivesUp M A F' (p.tryCatch h) := by
  induction p with
  | ret a => trivial
  | throw e => exact hh e
  | call o k ih =>
    exact fun w c => ⟨fun hc => ((hp w c).1 hc).tryCatch hok herror, ih _ (hp w c).2⟩

/-- A choice between two programs that give up gives up. -/
theorem GivesUp.ite {c : Prop} [Decidable c] {p q : Prog I ε α} (hp : GivesUp M A F p)
    (hq : GivesUp M A F q) : GivesUp M A F (if c then p else q) := by
  split
  · exact hp
  · exact hq

/-- A postcondition that speaks of the outcome alone holds against all answers. -/
theorem Ends.cwp {J : W → Prop} {B : I.Op → C → Prop} {p : Prog I ε α} (h : Ends F p)
    (hJ : ∀ w, J w) (w : W) : cwp M B J p (fun r _ => F r) w := by
  induction p generalizing w with
  | ret a => exact ⟨hJ w, h⟩
  | throw e => exact ⟨hJ w, h⟩
  | call o k ih => exact ⟨hJ w, fun c _ => ih _ (h _) _⟩

end GivesUp

/-- A complete run from the state in which the environment gives an answer that `A` does not allow
ends with `Q`, whatever it answers from there on. -/
def Strays (M : Machine I W C) (A : I.Op → C → Prop) (Q : Except ε α → W → Prop) :
    Prog I ε α → W → Prop
  | .ret _, _ => True
  | .throw _, _ => True
  | .call o k, w => ∀ c,
      (A o c → Strays M A Q (k (M.exec w o c).1) (M.exec w o c).2) ∧
        (¬ A o c →
          cwp M (anyAnswer I C) (fun _ => True) (k (M.exec w o c).1) Q (M.exec w o c).2)

section Strays

variable {M : Machine I W C} {A : I.Op → C → Prop} {Q R : Except ε α → W → Prop}
  {p : Prog I ε α} {w : W}

/-- The end of a run that `A` does not admit. -/
theorem result_of_strays (h : Strays M A Q p w) {cs : List C} {r : Except ε α}
    (hcs : ¬ M.Admits A cs (p, w)) (hr : (M.after cs (p, w)).1.result = some r) :
    Q r (M.after cs (p, w)).2 := by
  induction cs generalizing p w with
  | nil => exact absurd trivial hcs
  | cons c cs ih =>
    cases p with
    | ret a => exact absurd trivial hcs
    | throw e => exact absurd trivial hcs
    | call o k =>
      by_cases hc : A o c
      · exact ih ((h c).1 hc) (fun h => hcs ⟨hc, h⟩) hr
      · exact ensures_of_cwp ((h c).2 hc) cs (admits_anyAnswer M cs _) r hr

/-- A program that gives up after such an answer. -/
theorem GivesUp.strays {F : Except ε α → Prop} (h : GivesUp M A F p) (w : W) :
    Strays M A (fun r _ => F r) p w := by
  induction p generalizing w with
  | ret a => trivial
  | throw e => trivial
  | call o k ih =>
    exact fun c => ⟨fun _ => ih _ (h w c).2 _, fun hc => ((h w c).1 hc).cwp (fun _ => trivial) _⟩

/-- What holds at the end of every run holds at the end of these. -/
theorem Strays.and (h : Strays M A Q p w)
    (h' : cwp M (anyAnswer I C) (fun _ => True) p R w) :
    Strays M A (fun r v => Q r v ∧ R r v) p w := by
  induction p generalizing w with
  | ret a => trivial
  | throw e => trivial
  | call o k ih =>
    refine fun c => ⟨fun hc => ih _ ((h c).1 hc) (h'.2 c trivial), fun hc => ?_⟩
    exact cwp_mono (cwp_and ((h c).2 hc) (h'.2 c trivial)) (fun _ _ => trivial) fun _ _ _ hq => hq

/-- What holds at the end of the runs that stray may be weakened. -/
theorem Strays.mono (h : Strays M A Q p w) (hQ : ∀ r v, Q r v → R r v) : Strays M A R p w := by
  induction p generalizing w with
  | ret a => trivial
  | throw e => trivial
  | call o k ih =>
    exact fun c => ⟨fun hc => ih _ ((h c).1 hc),
      fun hc => cwp_mono ((h c).2 hc) (fun _ h => h) fun r v _ => hQ r v⟩

/-- Such an answer comes in the first program, or in the second one after a run of the first that
`A` admits. -/
theorem Strays.bind {f : α → Prog I ε β} {Q' : Except ε β → W → Prop}
    (hp : Strays M A Q p w)
    (hok : ∀ a v, Q (.ok a) v → cwp M (anyAnswer I C) (fun _ => True) (f a) Q' v)
    (herror : ∀ e v, Q (.error e) v → Q' (.error e) v)
    (hspec : cwp M A (fun _ => True) p R w)
    (hf : ∀ a v, R (.ok a) v → Strays M A Q' (f a) v) : Strays M A Q' (p >>= f) w := by
  induction p generalizing w with
  | ret a => exact hf a w hspec.2
  | throw e => trivial
  | call o k ih =>
    refine fun c => ⟨fun hc => ih _ ((hp c).1 hc) (hspec.2 c hc), fun hc => ?_⟩
    refine cwp_bind (cwp_mono ((hp c).2 hc) (fun _ h => h) ?_)
    rintro r v - hr
    cases r with
    | ok a => exact hok a v hr
    | error e => exact herror e v hr

/-- Such an answer comes in the program, or in its handler after a run that `A` admits. -/
theorem Strays.tryCatch {f : ε → Prog I ε α} {Q' : Except ε α → W → Prop}
    (hp : Strays M A Q p w)
    (hok : ∀ a v, Q (.ok a) v → Q' (.ok a) v)
    (herror : ∀ e v, Q (.error e) v → cwp M (anyAnswer I C) (fun _ => True) (f e) Q' v)
    (hspec : cwp M A (fun _ => True) p R w)
    (hf : ∀ e v, R (.error e) v → Strays M A Q' (f e) v) : Strays M A Q' (p.tryCatch f) w := by
  induction p generalizing w with
  | ret a => trivial
  | throw e => exact hf e w hspec.2
  | call o k ih =>
    refine fun c => ⟨fun hc => ih _ ((hp c).1 hc) (hspec.2 c hc), fun hc => ?_⟩
    refine cwp_tryCatch (cwp_mono ((hp c).2 hc) (fun _ h => h) ?_)
    rintro r v - hr
    cases r with
    | ok a => exact hok a v hr
    | error e => exact herror e v hr

end Strays

/-- Some answers that `A` allows let the program return, with `Q` for the value and the state at its
end. A weakest precondition speaks of all such answers. -/
def may (M : Machine I W C) (A : I.Op → C → Prop) : Prog I ε α → (α → W → Prop) → W → Prop
  | .ret a, Q, w => Q a w
  | .throw _, _, _ => False
  | .call o k, Q, w => ∃ c, A o c ∧ may M A (k (M.exec w o c).1) Q (M.exec w o c).2

section May

variable {M : Machine I W C} {A : I.Op → C → Prop} {p : Prog I ε α} {w : W}

/-- If the first part can return a value with which the second can end as wanted, the sequence
can. -/
theorem may_bind {f : α → Prog I ε β} {Q : β → W → Prop}
    (h : may M A p (fun a v => may M A (f a) Q v) w) : may M A (p >>= f) Q w := by
  induction p generalizing w with
  | ret a => exact h
  | throw e => exact h.elim
  | call o k ih =>
    obtain ⟨c, hc, hk⟩ := h
    exact ⟨c, hc, ih _ hk⟩

/-- What some run ends with may be weakened. -/
theorem may_mono {Q Q' : α → W → Prop} (h : may M A p Q w) (hQ : ∀ a v, Q a v → Q' a v) :
    may M A p Q' w := by
  induction p generalizing w with
  | ret a => exact hQ a w h
  | throw e => exact h.elim
  | call o k ih =>
    obtain ⟨c, hc, hk⟩ := h
    exact ⟨c, hc, ih _ hk⟩

/-- A run that returns does not come to the handler. -/
theorem may_tryCatch {f : ε → Prog I ε α} {Q : α → W → Prop} (h : may M A p Q w) :
    may M A (p.tryCatch f) Q w := by
  induction p generalizing w with
  | ret a => exact h
  | throw e => exact h.elim
  | call o k ih =>
    obtain ⟨c, hc, hk⟩ := h
    exact ⟨c, hc, ih _ hk⟩

/-- The answers, and the end of the run. -/
theorem exists_run_of_may {Q : α → W → Prop} (h : may M A p Q w) :
    ∃ cs a, M.Admits A cs (p, w) ∧ (M.after cs (p, w)).1 = .ret a ∧ Q a (M.after cs (p, w)).2 := by
  induction p generalizing w with
  | ret a => exact ⟨[], a, trivial, rfl, h⟩
  | throw e => exact h.elim
  | call o k ih =>
    obtain ⟨c, hc, hk⟩ := h
    obtain ⟨cs, a, hcs, hend, hq⟩ := ih _ hk
    exact ⟨c :: cs, a, ⟨hc, hcs⟩, hend, hq⟩

end May

section Split

variable {M : Machine I W C}

/-- A complete run of a sequence ends with an exception of its first program, or goes on with the
second one from the value of the first. -/
theorem after_bind_done {p : Prog I ε α} {f : α → Prog I ε β} {w : W} {cs : List C}
    (h : (M.after cs (p >>= f, w)).1.Done) :
    (∃ e v, M.after cs (p, w) = (.throw e, v) ∧ M.after cs (p >>= f, w) = (.throw e, v)) ∨
      ∃ ds ds' a v, cs = ds ++ ds' ∧ M.after ds (p, w) = (.ret a, v) ∧
        M.after cs (p >>= f, w) = M.after ds' (f a, v) := by
  induction cs generalizing p w with
  | nil =>
    cases p with
    | ret a => exact .inr ⟨[], [], a, w, rfl, rfl, rfl⟩
    | throw e => exact .inl ⟨e, w, rfl, rfl⟩
    | call o k => exact h.elim
  | cons c cs ih =>
    cases p with
    | ret a => exact .inr ⟨[], c :: cs, a, w, rfl, rfl, rfl⟩
    | throw e =>
      rw [Prog.throw_bind] at h ⊢
      exact .inl ⟨e, w, M.after_of_done _ (p := .throw e) trivial w,
        M.after_of_done _ (p := .throw e) trivial w⟩
    | call o k =>
      rcases ih h with ⟨e, v, hp, hend⟩ | ⟨ds, ds', a, v, rfl, hp, hend⟩
      · exact .inl ⟨e, v, hp, hend⟩
      · exact .inr ⟨c :: ds, ds', a, v, rfl, hp, hend⟩

/-- A complete run of a program with a handler returns as the program does, or goes on with the
handler from its exception. -/
theorem after_tryCatch_done {p : Prog I ε α} {f : ε → Prog I ε α} {w : W} {cs : List C}
    (h : (M.after cs (p.tryCatch f, w)).1.Done) :
    (∃ a v, M.after cs (p, w) = (.ret a, v) ∧ M.after cs (p.tryCatch f, w) = (.ret a, v)) ∨
      ∃ ds ds' e v, cs = ds ++ ds' ∧ M.after ds (p, w) = (.throw e, v) ∧
        M.after cs (p.tryCatch f, w) = M.after ds' (f e, v) := by
  induction cs generalizing p w with
  | nil =>
    cases p with
    | ret a => exact .inl ⟨a, w, rfl, rfl⟩
    | throw e => exact .inr ⟨[], [], e, w, rfl, rfl, rfl⟩
    | call o k => exact h.elim
  | cons c cs ih =>
    cases p with
    | ret a => exact .inl ⟨a, w, M.after_of_done _ (p := .ret a) trivial w,
        M.after_of_done _ (p := .ret a) trivial w⟩
    | throw e => exact .inr ⟨[], c :: cs, e, w, rfl, rfl, rfl⟩
    | call o k =>
      rcases ih h with ⟨a, v, hp, hend⟩ | ⟨ds, ds', e, v, rfl, hp, hend⟩
      · exact .inl ⟨a, v, hp, hend⟩
      · exact .inr ⟨c :: ds, ds', e, v, rfl, hp, hend⟩

/-- Answers to a program with a handler that performs nothing are answers to the program. -/
theorem admits_tryCatch_ret {A : I.Op → C → Prop} {p : Prog I ε α} {f : ε → α} {w : W}
    {cs : List C} : M.Admits A cs (p.tryCatch fun e => .ret (f e), w) ↔ M.Admits A cs (p, w) := by
  induction cs generalizing p w with
  | nil => exact Iff.rfl
  | cons c cs ih =>
    cases p with
    | ret a => exact Iff.rfl
    | throw e => exact Iff.rfl
    | call o k => exact and_congr_right fun _ => ih

end Split

end Effects
