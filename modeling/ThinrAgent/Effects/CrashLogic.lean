import ThinrAgent.Effects.Protocol

/-!
# `ThinrAgent.Effects.CrashLogic`: weakest preconditions with a crash invariant

A program that a crash can stop needs two kinds of assertion. The postcondition speaks
about the state at the end. The crash invariant speaks about every state on the way,
because each of them can be the last one. `cwp M A J p Q w` says both for the program `p`
started at `w`: `J` holds before the first operation and after each operation, and `Q`
holds at the end, whatever answers allowed by `A` the environment gives.

The rules `cwp_bind`, `cwp_ensure`, `cwp_mono` compose such facts. `cwp_after` is the
soundness theorem: after any list of allowed answers the invariant holds, and the rest of
the program still satisfies its own `cwp`.

`guards M A G p w` is the third kind of assertion: `G` holds of the state and the operation
wherever `p` calls one.
-/

set_option autoImplicit false

namespace Effects

variable {I : Interface} {ε α β W C : Type}

/-- The crash weakest precondition. `J` is the crash invariant and `Q` the postcondition. -/
def cwp (M : Machine I W C) (A : I.Op → C → Prop) (J : W → Prop) :
    Prog I ε α → (Except ε α → W → Prop) → W → Prop
  | .ret a, Q, w => J w ∧ Q (.ok a) w
  | .throw e, Q, w => J w ∧ Q (.error e) w
  | .call o k, Q, w =>
      J w ∧ ∀ c, A o c → cwp M A J (k (M.exec w o c).1) Q (M.exec w o c).2

/-- The environment that may give every answer to every operation: no assumption at all. -/
def anyAnswer (I : Interface) (C : Type) : I.Op → C → Prop := fun _ _ => True

section Rules

variable {M : Machine I W C} {A : I.Op → C → Prop} {J : W → Prop}

/-- A program that returns passes through one state only. -/
@[simp] theorem cwp_ret (a : α) (Q : Except ε α → W → Prop) (w : W) :
    cwp M A J (.ret a) Q w ↔ J w ∧ Q (.ok a) w := Iff.rfl

/-- A program that throws passes through one state only. -/
@[simp] theorem cwp_throw (e : ε) (Q : Except ε α → W → Prop) (w : W) :
    cwp M A J (.throw e) Q w ↔ J w ∧ Q (.error e) w := Iff.rfl

/-- The crash invariant holds at the start, since the process may die before its first operation. -/
theorem cwp_inv {p : Prog I ε α} {Q : Except ε α → W → Prop} {w : W}
    (h : cwp M A J p Q w) : J w := by
  cases p with
  | ret a => exact h.1
  | throw e => exact h.1
  | call o k => exact h.1

/-- The rule of consequence. The postcondition may use that the invariant holds. -/
theorem cwp_mono {J' : W → Prop} {p : Prog I ε α} {Q Q' : Except ε α → W → Prop} {w : W}
    (h : cwp M A J p Q w) (hJ : ∀ v, J v → J' v) (hQ : ∀ r v, J v → Q r v → Q' r v) :
    cwp M A J' p Q' w := by
  induction p generalizing w with
  | ret a => exact ⟨hJ w h.1, hQ _ w h.1 h.2⟩
  | throw e => exact ⟨hJ w h.1, hQ _ w h.1 h.2⟩
  | call o k ih => exact ⟨hJ w h.1, fun c hc => ih _ (h.2 c hc)⟩

/-- Two facts about one program hold of it together, with the conjunction of their crash
invariants. -/
theorem cwp_and {J' : W → Prop} {p : Prog I ε α} {Q Q' : Except ε α → W → Prop} {w : W}
    (h : cwp M A J p Q w) (h' : cwp M A J' p Q' w) :
    cwp M A (fun v => J v ∧ J' v) p (fun r v => Q r v ∧ Q' r v) w := by
  induction p generalizing w with
  | ret a => exact ⟨⟨h.1, h'.1⟩, h.2, h'.2⟩
  | throw e => exact ⟨⟨h.1, h'.1⟩, h.2, h'.2⟩
  | call o k ih => exact ⟨⟨h.1, h'.1⟩, fun c hc => ih _ (h.2 c hc) (h'.2 c hc)⟩

/-- Sequencing. An exception of the first program is the exception of the whole. -/
theorem cwp_bind {p : Prog I ε α} {f : α → Prog I ε β} {Q : Except ε β → W → Prop} {w : W}
    (h : cwp M A J p
      (fun r v => match r with
        | .ok a => cwp M A J (f a) Q v
        | .error e => Q (.error e) v) w) :
    cwp M A J (p >>= f) Q w := by
  induction p generalizing w with
  | ret a => exact h.2
  | throw e => exact h
  | call o k ih => exact ⟨h.1, fun c hc => ih _ (h.2 c hc)⟩

/-- The rule for `ensure`: the last program runs after a value and after an exception. -/
theorem cwp_ensure {fin : Prog I ε Unit} {p : Prog I ε α} {Q : Except ε α → W → Prop} {w : W}
    (h : cwp M A J p
      (fun r v => cwp M A J fin
        (fun r' u => match r' with
          | .ok () => Q r u
          | .error e => Q (.error e) u) v) w) :
    cwp M A J (p.ensure fin) Q w := by
  induction p generalizing w with
  | ret a =>
    refine cwp_bind (cwp_mono h.2 (fun _ hv => hv) ?_)
    intro r v hv hr
    cases r with
    | ok u => exact ⟨hv, hr⟩
    | error e => exact hr
  | throw e =>
    refine cwp_bind (cwp_mono h.2 (fun _ hv => hv) ?_)
    intro r v hv hr
    cases r with
    | ok u => exact ⟨hv, hr⟩
    | error e' => exact hr
  | call o k ih => exact ⟨h.1, fun c hc => ih _ (h.2 c hc)⟩

/-- The rule for `tryCatch`: the handler continues from the state of the exception. -/
theorem cwp_tryCatch {p : Prog I ε α} {h' : ε → Prog I ε α} {Q : Except ε α → W → Prop} {w : W}
    (h : cwp M A J p
      (fun r v => match r with
        | .ok a => Q (.ok a) v
        | .error e => cwp M A J (h' e) Q v) w) :
    cwp M A J (p.tryCatch h') Q w := by
  induction p generalizing w with
  | ret a => exact h
  | throw e => exact h.2
  | call o k ih => exact ⟨h.1, fun c hc => ih _ (h.2 c hc)⟩

/-- Another environment, which allows less for the operations of the program. -/
theorem cwp_anti {A' : I.Op → C → Prop} {ok : I.Op → Prop} (hA : ∀ o c, ok o → A' o c → A o c)
    {p : Prog I ε α} (hp : AllOps ok p) {Q : Except ε α → W → Prop} {w : W}
    (h : cwp M A J p Q w) : cwp M A' J p Q w := by
  induction p generalizing w with
  | ret a => exact h
  | throw e => exact h
  | call o k ih => exact ⟨h.1, fun c hc => ih _ (hp.2 _) (h.2 c (hA o c hp.1 hc))⟩

/-- What every operation of the program keeps, holds at every point of it and at its end. -/
theorem cwp_of_allOps {ok : I.Op → Prop} (hok : ∀ w o c, ok o → J w → J (M.exec w o c).2)
    {p : Prog I ε α} (h : AllOps ok p) {w : W} (hw : J w) : cwp M A J p (fun _ v => J v) w := by
  induction p generalizing w with
  | ret a => exact ⟨hw, hw⟩
  | throw e => exact ⟨hw, hw⟩
  | call o k ih => exact ⟨hw, fun c _ => ih _ (h.2 _) (hok w o c h.1 hw)⟩

/-- A program that never throws ends with a value. -/
theorem cwp_of_neverThrows {p : Prog I ε α} (h : NeverThrows p) (w : W) :
    cwp M A (fun _ => True) p (fun r _ => ∃ a, r = .ok a) w := by
  induction p generalizing w with
  | ret a => exact ⟨trivial, a, rfl⟩
  | throw e => exact h.elim
  | call o k ih => exact ⟨trivial, fun c _ => ih _ (h _) _⟩

end Rules

/-- Wherever the program calls an operation, `G` holds of the state and the operation. -/
def guards (M : Machine I W C) (A : I.Op → C → Prop) (G : W → I.Op → Prop) :
    Prog I ε α → W → Prop
  | .ret _, _ => True
  | .throw _, _ => True
  | .call o k, w => G w o ∧ ∀ c, A o c → guards M A G (k (M.exec w o c).1) (M.exec w o c).2

section Guards

variable {M : Machine I W C} {A : I.Op → C → Prop} {J : W → Prop} {G : W → I.Op → Prop}

/-- What is said of each operation may be weakened. -/
theorem guards_mono {G' : W → I.Op → Prop} {p : Prog I ε α} {w : W} (h : guards M A G p w)
    (hG : ∀ v o, G v o → G' v o) : guards M A G' p w := by
  induction p generalizing w with
  | ret a => trivial
  | throw e => trivial
  | call o k ih => exact ⟨hG _ _ h.1, fun c hc => ih _ (h.2 c hc)⟩

/-- Operations that satisfy the guard in every state. -/
theorem guards_of_allOps {ok : I.Op → Prop} (hok : ∀ o, ok o → ∀ w, G w o) {p : Prog I ε α}
    (h : AllOps ok p) (w : W) : guards M A G p w := by
  induction p generalizing w with
  | ret a => trivial
  | throw e => trivial
  | call o k ih => exact ⟨hok o h.1 w, fun c _ => ih _ (h.2 _) _⟩

/-- Sequencing: the second program is guarded in every state the first one ends in. -/
theorem guards_bind {p : Prog I ε α} {f : α → Prog I ε β} {w : W} (hp : guards M A G p w)
    (h : cwp M A J p (fun r v => ∀ a, r = .ok a → guards M A G (f a) v) w) :
    guards M A G (p >>= f) w := by
  induction p generalizing w with
  | ret a => exact h.2 a rfl
  | throw e => trivial
  | call o k ih => exact ⟨hp.1, fun c hc => ih _ (hp.2 c hc) (h.2 c hc)⟩

/-- The second program is guarded in every state. -/
theorem guards_then {p : Prog I ε α} {f : α → Prog I ε β} {w : W} (hp : guards M A G p w)
    (h : ∀ a v, guards M A G (f a) v) : guards M A G (p >>= f) w := by
  induction p generalizing w with
  | ret a => exact h a w
  | throw e => trivial
  | call o k ih => exact ⟨hp.1, fun c hc => ih _ (hp.2 c hc)⟩

/-- The last program is guarded in every state. -/
theorem guards_ensure {p : Prog I ε α} {fin : Prog I ε Unit} {w : W} (hp : guards M A G p w)
    (hfin : ∀ v, guards M A G fin v) : guards M A G (p.ensure fin) w := by
  induction p generalizing w with
  | ret a => exact guards_then (hfin w) fun _ _ => trivial
  | throw e => exact guards_then (hfin w) fun _ _ => trivial
  | call o k ih => exact ⟨hp.1, fun c hc => ih _ (hp.2 c hc)⟩

/-- The operations under a handler are those of the program and of the handler, wherever the
exception was thrown. -/
theorem guards_tryCatch {p : Prog I ε α} {f : ε → Prog I ε α} {w : W} (hp : guards M A G p w)
    (h : ∀ e v, guards M A G (f e) v) : guards M A G (p.tryCatch f) w := by
  induction p generalizing w with
  | ret a => trivial
  | throw e => exact h e w
  | call o k ih => exact ⟨hp.1, fun c hc => ih _ (hp.2 c hc)⟩

end Guards

/-! ### The operations of a run -/

section Performed

variable {M : Machine I W C} {ok : I.Op → Prop}

/-- The record of a program whose operations are all `ok`. -/
theorem logged_of_allOps {p : Prog I ε α} (hp : AllOps ok p) {w : W} {l : List (Event I)}
    (cs : List C) (hl : ∀ e ∈ l, ok e.1) :
    ∀ e ∈ (M.logged.after cs (p, (w, l))).2.2, ok e.1 := by
  induction cs generalizing p w l with
  | nil => exact hl
  | cons c cs ih =>
    cases p with
    | ret a =>
      rw [M.logged.after_of_done _ (p := .ret a) trivial]
      exact hl
    | throw e =>
      rw [M.logged.after_of_done _ (p := .throw e) trivial]
      exact hl
    | call o k =>
      refine ih (hp.2 (M.exec w o c).1) (l := ⟨o, (M.exec w o c).1⟩ :: l) fun e he => ?_
      rcases List.mem_cons.mp he with rfl | he
      · exact hp.1
      · exact hl e he

/-- The operations of a sequence: those of the first program, and those the second one performs
from the value the first one returned. -/
theorem performed_bind {p : Prog I ε α} {f : α → Prog I ε β} {w : W} {cs : List C}
    (hp : AllOps ok p) (hf : ∀ a, (M.after cs (p, w)).1 = .ret a → AllOps ok (f a)) :
    ∀ e ∈ M.performed cs (p >>= f) w, ok e.1 := by
  have hlog {l : List (Event I)} (hl : ∀ e ∈ l, ok e.1) :
      ∀ e ∈ (M.logged.after cs (p >>= f, (w, l))).2.2, ok e.1 := by
    induction cs generalizing p w l with
    | nil => exact hl
    | cons c cs ih =>
      cases p with
      | ret a =>
        exact logged_of_allOps (hf a (by rw [M.after_of_done _ (p := .ret a) trivial])) (c :: cs) hl
      | throw e =>
        rw [Prog.throw_bind, M.logged.after_of_done _ (p := .throw e) trivial]
        exact hl
      | call o k =>
        refine ih (hp.2 (M.exec w o c).1) hf (l := ⟨o, (M.exec w o c).1⟩ :: l) fun e he => ?_
        rcases List.mem_cons.mp he with rfl | he
        · exact hp.1
        · exact hl e he
  exact hlog (by simp)

/-- A sequence that returned has run its second program from the value of the first. -/
theorem after_bind_ret {p : Prog I ε α} {f : α → Prog I ε β} {w : W} {cs : List C} {b : β}
    (h : (M.after cs (p >>= f, w)).1 = .ret b) :
    ∃ a, (M.after cs (p, w)).1 = .ret a ∧ ∃ ds v, (M.after ds (f a, v)).1 = .ret b := by
  induction cs generalizing p w with
  | nil =>
    cases p with
    | ret a => exact ⟨a, rfl, [], w, h⟩
    | throw e => cases h
    | call o k => cases h
  | cons c cs ih =>
    cases p with
    | ret a =>
      refine ⟨a, ?_, c :: cs, w, h⟩
      rw [M.after_of_done _ (p := .ret a) trivial]
    | throw e =>
      rw [Prog.throw_bind, M.after_of_done _ (p := .throw e) trivial] at h
      cases h
    | call o k => exact ih h

end Performed

section Soundness

variable {M : Machine I W C} {A : I.Op → C → Prop} {J : W → Prop}

/-- Answers that are allowed for every operation are allowed in every run. -/
theorem admits_of_forall (M : Machine I W C) {A : I.Op → C → Prop} {cs : List C}
    (h : ∀ c ∈ cs, ∀ o, A o c) (s : Prog I ε α × W) : M.Admits A cs s := by
  induction cs generalizing s with
  | nil => trivial
  | cons c cs ih =>
    obtain ⟨p, w⟩ := s
    cases p with
    | ret a => trivial
    | throw e => trivial
    | call o k =>
      exact ⟨h c List.mem_cons_self o, ih (fun d hd => h d (List.mem_cons_of_mem c hd)) _⟩

/-- Every list of answers is admitted where every answer is allowed. -/
theorem admits_anyAnswer (M : Machine I W C) (cs : List C) (s : Prog I ε α × W) :
    M.Admits (anyAnswer I C) cs s :=
  admits_of_forall M (fun _ _ _ => trivial) s

/-- Every program ends, whatever one answer it is given again and again. -/
theorem exists_done (M : Machine I W C) (c : C) (p : Prog I ε α) (w : W) :
    ∃ n, (M.after (List.replicate n c) (p, w)).1.Done := by
  induction p generalizing w with
  | ret a => exact ⟨0, trivial⟩
  | throw e => exact ⟨0, trivial⟩
  | call o k ih =>
    obtain ⟨n, hn⟩ := ih (M.exec w o c).1 (M.exec w o c).2
    exact ⟨n + 1, hn⟩

/-- Soundness. After any list of allowed answers, the rest of the program satisfies its
crash weakest precondition at the state reached. -/
theorem cwp_after {p : Prog I ε α} {Q : Except ε α → W → Prop} {w : W} (cs : List C)
    (h : cwp M A J p Q w) (hcs : M.Admits A cs (p, w)) :
    cwp M A J (M.after cs (p, w)).1 Q (M.after cs (p, w)).2 := by
  induction cs generalizing p w with
  | nil => exact h
  | cons c cs ih =>
    cases p with
    | ret a =>
      rw [M.after_of_done (c :: cs) (p := .ret a) trivial w]
      exact h
    | throw e =>
      rw [M.after_of_done (c :: cs) (p := .throw e) trivial w]
      exact h
    | call o k => exact ih (h.2 c hcs.1) hcs.2

/-- The crash invariant holds wherever the program is stopped. -/
theorem cwp_after_inv {p : Prog I ε α} {Q : Except ε α → W → Prop} {w : W} {cs : List C}
    (h : cwp M A J p Q w) (hcs : M.Admits A cs (p, w)) : J (M.after cs (p, w)).2 :=
  cwp_inv (cwp_after cs h hcs)

/-- The postcondition holds when the program has returned. -/
theorem cwp_after_ret {p : Prog I ε α} {Q : Except ε α → W → Prop} {w : W} {cs : List C} {a : α}
    (h : cwp M A J p Q w) (hcs : M.Admits A cs (p, w)) (hend : (M.after cs (p, w)).1 = .ret a) :
    Q (.ok a) (M.after cs (p, w)).2 := by
  have hq := cwp_after cs h hcs
  rw [hend] at hq
  exact hq.2

/-- The postcondition holds when the program has thrown. -/
theorem cwp_after_throw {p : Prog I ε α} {Q : Except ε α → W → Prop} {w : W} {cs : List C}
    {e : ε} (h : cwp M A J p Q w) (hcs : M.Admits A cs (p, w))
    (hend : (M.after cs (p, w)).1 = .throw e) : Q (.error e) (M.after cs (p, w)).2 := by
  have hq := cwp_after cs h hcs
  rw [hend] at hq
  exact hq.2

end Soundness

/-- Every complete run of the program against answers `A` allows ends with `Q`. -/
def Ensures (M : Machine I W C) (A : I.Op → C → Prop) (p : Prog I ε α)
    (Q : Except ε α → W → Prop) (w : W) : Prop :=
  ∀ cs, M.Admits A cs (p, w) → ∀ r, (M.after cs (p, w)).1.result = some r →
    Q r (M.after cs (p, w)).2

/-- The environment allows an answer to every operation. -/
def Answers (A : I.Op → C → Prop) : Prop := ∀ o, ∃ c, A o c

section Runs

variable {M : Machine I W C} {A A' : I.Op → C → Prop} {p : Prog I ε α}
  {Q Q' : Except ε α → W → Prop} {w : W}

/-- What a weakest precondition says of the end holds of every complete run. -/
theorem ensures_of_cwp {J : W → Prop} (h : cwp M A J p Q w) : Ensures M A p Q w := by
  intro cs hcs r hr
  cases hend : (M.after cs (p, w)).1 with
  | ret a =>
    rw [hend] at hr
    cases hr
    exact cwp_after_ret h hcs hend
  | throw e =>
    rw [hend] at hr
    cases hr
    exact cwp_after_throw h hcs hend
  | call o k =>
    rw [hend] at hr
    cases hr

/-- Answers that are admitted are admitted where more is allowed. -/
theorem admits_mono (h : ∀ o c, A' o c → A o c) {cs : List C} {s : Prog I ε α × W}
    (hcs : M.Admits A' cs s) : M.Admits A cs s := by
  induction cs generalizing s with
  | nil => trivial
  | cons c cs ih =>
    obtain ⟨p, w⟩ := s
    cases p with
    | ret a => trivial
    | throw e => trivial
    | call o k => exact ⟨h o c hcs.1, ih hcs.2⟩

/-- Answers that two environments allow are allowed by the environment that demands both. -/
theorem admits_and {cs : List C} {s : Prog I ε α × W} (h : M.Admits A cs s)
    (h' : M.Admits A' cs s) : M.Admits (fun o c => A o c ∧ A' o c) cs s := by
  induction cs generalizing s with
  | nil => trivial
  | cons c cs ih =>
    obtain ⟨p, w⟩ := s
    cases p with
    | ret a => trivial
    | throw e => trivial
    | call o k => exact ⟨⟨h.1, h'.1⟩, ih h.2 h'.2⟩

/-- Answers to a sequence are answers to its first program. -/
theorem admits_of_bind {γ : Type} {f : α → Prog I ε γ} {cs : List C}
    (h : M.Admits A cs (p >>= f, w)) : M.Admits A cs (p, w) := by
  induction cs generalizing p w with
  | nil => trivial
  | cons c cs ih =>
    cases p with
    | ret a => trivial
    | throw e => trivial
    | call o k => exact ⟨h.1, ih h.2⟩

/-- An environment that always answers lets every program come to its end. -/
theorem exists_run (M : Machine I W C) (hA : Answers A) (p : Prog I ε α) (w : W) :
    ∃ cs r, M.Admits A cs (p, w) ∧ (M.after cs (p, w)).1.result = some r := by
  induction p generalizing w with
  | ret a => exact ⟨[], _, trivial, rfl⟩
  | throw e => exact ⟨[], _, trivial, rfl⟩
  | call o k ih =>
    obtain ⟨c, hc⟩ := hA o
    obtain ⟨cs, r, hcs, hr⟩ := ih (M.exec w o c).1 (M.exec w o c).2
    exact ⟨c :: cs, r, ⟨hc, hcs⟩, hr⟩

/-- To refute a postcondition it is enough to show that its opposite holds of the runs of some
environment that allows less. -/
theorem not_ensures {J : W → Prop} (hA : Answers A') (hle : ∀ o c, A' o c → A o c)
    (h : cwp M A' J p Q' w) (hQ : ∀ r v, Q' r v → ¬ Q r v) : ¬ Ensures M A p Q w := by
  intro hens
  obtain ⟨cs, r, hcs, hr⟩ := exists_run M hA p w
  exact hQ r _ (ensures_of_cwp h cs hcs r hr) (hens cs (admits_mono hle hcs) r hr)

end Runs

end Effects
