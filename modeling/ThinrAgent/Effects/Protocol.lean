import ThinrAgent.Effects.Prog

/-!
# `ThinrAgent.Effects.Protocol`: programs that follow a protocol

A protocol has states. A state says which operations a program may perform, which results
they can have there, and which state comes after them. `P.Follows t p Q` says that the
program `p` keeps to the protocol from the state `t`, whatever results it gets, and that `Q`
holds of the state and the outcome at its end. What the operations do to the world plays no
part: the protocol is about the code alone.

`AllOps ok p` is the case of one state: every operation of `p` is one of `ok`. `Until` is the case
of a program that one result of an operation hands over to another discipline. `NeverThrows p`
says that `p` ends with a value, whatever results it gets.
-/

set_option autoImplicit false

namespace Effects

variable {I : Interface} {ε α β : Type}

/-- Every operation the program can perform satisfies `ok`. -/
def AllOps (ok : I.Op → Prop) : Prog I ε α → Prop
  | .ret _ => True
  | .throw _ => True
  | .call o k => ok o ∧ ∀ r, AllOps ok (k r)

section AllOps
variable {ok ok' : I.Op → Prop}

/-- A program that returns at once performs no operation. -/
@[simp] theorem allOps_ret (a : α) : AllOps ok (.ret a : Prog I ε α) := trivial

/-- A program that throws at once performs no operation. -/
@[simp] theorem allOps_throw (e : ε) : AllOps ok (.throw e : Prog I ε α) := trivial

/-- A program of one operation performs only operations of a kind when that one is of the kind. -/
theorem AllOps.single {o : I.Op} (h : ok o) : AllOps ok (.call o .ret : Prog I ε (I.Res o)) :=
  ⟨h, fun _ => trivial⟩

/-- The operations of a program may be judged by a weaker condition. -/
theorem AllOps.mono {p : Prog I ε α} (hp : AllOps ok p) (h : ∀ o, ok o → ok' o) :
    AllOps ok' p := by
  induction p with
  | ret a => trivial
  | throw e => trivial
  | call o k ih => exact ⟨h o hp.1, fun r => ih r (hp.2 r)⟩

/-- A sequence performs the operations of its first part, and those of the second part for each
value the first can return. -/
theorem AllOps.bind {p : Prog I ε α} {f : α → Prog I ε β} (hp : AllOps ok p)
    (hf : ∀ a, AllOps ok (f a)) : AllOps ok (p >>= f) := by
  induction p with
  | ret a => exact hf a
  | throw e => trivial
  | call o k ih => exact ⟨hp.1, fun r => ih r (hp.2 r)⟩

/-- A program with a handler performs its own operations and those of the handler, for each
exception. -/
theorem AllOps.tryCatch {p : Prog I ε α} {h : ε → Prog I ε α} (hp : AllOps ok p)
    (hh : ∀ e, AllOps ok (h e)) : AllOps ok (p.tryCatch h) := by
  induction p with
  | ret a => trivial
  | throw e => exact hh e
  | call o k ih => exact ⟨hp.1, fun r => ih r (hp.2 r)⟩

/-- A program with a final part performs its own operations and those of the final part, however it
ends. -/
theorem AllOps.ensure {p : Prog I ε α} {fin : Prog I ε Unit} (hp : AllOps ok p)
    (hfin : AllOps ok fin) : AllOps ok (p.ensure fin) := by
  induction p with
  | ret a => exact hfin.bind fun _ => trivial
  | throw e => exact hfin.bind fun _ => trivial
  | call o k ih => exact ⟨hp.1, fun r => ih r (hp.2 r)⟩

/-- Of a choice only the branch that is taken has to perform good operations. -/
theorem AllOps.ite {c : Prop} [Decidable c] {p q : Prog I ε α} (hp : c → AllOps ok p)
    (hq : ¬ c → AllOps ok q) : AllOps ok (if c then p else q) := by
  split
  · exact hp ‹c›
  · exact hq ‹¬ c›

end AllOps

/-- Every operation of the program satisfies `ok`, up to the first result that satisfies `hit`,
after which `G` holds of the rest. Without such a result a returned value satisfies `R`. -/
def Until (ok : I.Op → Prop) (hit : (o : I.Op) → I.Res o → Prop) (G : Prog I ε α → Prop)
    (R : α → Prop) : Prog I ε α → Prop
  | .ret a => R a
  | .throw _ => True
  | .call o k => ok o ∧ ∀ r, (hit o r → G (k r)) ∧ (¬ hit o r → Until ok hit G R (k r))

section Until
variable {ok : I.Op → Prop} {hit : (o : I.Op) → I.Res o → Prop}

/-- One operation that cannot hit: it is of the kind, and what follows each of its answers is
right. -/
theorem Until.call {o : I.Op} {k : I.Res o → Prog I ε α} {G : Prog I ε α → Prop} {R : α → Prop}
    (ho : ok o) (hno : ∀ r, ¬ hit o r) (hk : ∀ r, Until ok hit G R (k r)) :
    Until ok hit G R (.call o k) :=
  ⟨ho, fun r => ⟨fun h => absurd h (hno r), fun _ => hk r⟩⟩

/-- What holds after the hit, and of the value where there is none, may be weakened. -/
theorem Until.mono {p : Prog I ε α} {G G' : Prog I ε α → Prop} {R R' : α → Prop}
    (h : Until ok hit G R p) (hG : ∀ q, G q → G' q) (hR : ∀ a, R a → R' a) :
    Until ok hit G' R' p := by
  induction p with
  | ret a => exact hR a h
  | throw e => trivial
  | call o k ih =>
    exact ⟨h.1, fun r => ⟨fun hr => hG _ ((h.2 r).1 hr), fun hr => ih r ((h.2 r).2 hr)⟩⟩

/-- In a sequence the hit may come in the first part, and then the rest of the whole has to satisfy
the condition. Where it has not come, the second part goes on under the same discipline. -/
theorem Until.bind {p : Prog I ε α} {f : α → Prog I ε β} {G : Prog I ε α → Prop}
    {G' : Prog I ε β → Prop} {R : α → Prop} {R' : β → Prop} (h : Until ok hit G R p)
    (hG : ∀ q, G q → G' (q >>= f)) (hf : ∀ a, R a → Until ok hit G' R' (f a)) :
    Until ok hit G' R' (p >>= f) := by
  induction p with
  | ret a => exact hf a h
  | throw e => trivial
  | call o k ih =>
    exact ⟨h.1, fun r => ⟨fun hr => hG _ ((h.2 r).1 hr), fun hr => ih r ((h.2 r).2 hr)⟩⟩

/-- The same for a program with a handler: the handler runs under the discipline when no hit has
come before the exception. -/
theorem Until.tryCatch {p : Prog I ε α} {f : ε → Prog I ε α} {G G' : Prog I ε α → Prop}
    {R : α → Prop} (h : Until ok hit G R p) (hG : ∀ q, G q → G' (q.tryCatch f))
    (hf : ∀ e, Until ok hit G' R (f e)) : Until ok hit G' R (p.tryCatch f) := by
  induction p with
  | ret a => exact h
  | throw e => exact hf e
  | call o k ih =>
    exact ⟨h.1, fun r => ⟨fun hr => hG _ ((h.2 r).1 hr), fun hr => ih r ((h.2 r).2 hr)⟩⟩

/-- A program whose operations all satisfy `ok`, with a postcondition. -/
theorem AllOps.until {p : Prog I ε α} {G : Prog I ε α → Prop} (h : AllOps ok p) :
    Until ok (fun _ _ => False) G (fun _ => True) p := by
  induction p with
  | ret a => trivial
  | throw e => trivial
  | call o k ih => exact .call h.1 (fun _ => id) fun r => ih r (h.2 r)

/-- The same, where no result of an operation can hit. -/
theorem AllOps.until_of_miss {ok' : I.Op → Prop} {p : Prog I ε α} {G : Prog I ε α → Prop}
    (h : AllOps ok' p) (hok : ∀ o, ok' o → ok o ∧ ∀ r, ¬ hit o r) :
    Until ok hit G (fun _ => True) p := by
  induction p with
  | ret a => trivial
  | throw e => trivial
  | call o k ih => exact .call (hok o h.1).1 (hok o h.1).2 fun r => ih r (h.2 r)

/-- Where no result can hit, the discipline says no more than that every operation satisfies
`ok`. -/
theorem Until.allOps {p : Prog I ε α} {G : Prog I ε α → Prop} {R : α → Prop}
    (h : Until ok (fun _ _ => False) G R p) : AllOps ok p := by
  induction p with
  | ret a => trivial
  | throw e => trivial
  | call o k ih => exact ⟨h.1, fun r => ih r ((h.2 r).2 id)⟩

end Until

/-- No outcome of the program is an exception. -/
def NeverThrows : Prog I ε α → Prop
  | .ret _ => True
  | .throw _ => False
  | .call _ k => ∀ r, NeverThrows (k r)

section NeverThrows

/-- A program of one operation, whose answer it returns, never throws. -/
theorem NeverThrows.single (o : I.Op) : NeverThrows (.call o .ret : Prog I ε (I.Res o)) :=
  fun _ => trivial

/-- A sequence does not throw when neither part does, the second for no value of the first. -/
theorem NeverThrows.bind {p : Prog I ε α} {f : α → Prog I ε β} (hp : NeverThrows p)
    (hf : ∀ a, NeverThrows (f a)) : NeverThrows (p >>= f) := by
  induction p with
  | ret a => exact hf a
  | throw e => exact hp.elim
  | call o k ih => exact fun r => ih r (hp r)

/-- A choice between two programs that do not throw does not throw. -/
theorem NeverThrows.ite {c : Prop} [Decidable c] {p q : Prog I ε α} (hp : NeverThrows p)
    (hq : NeverThrows q) : NeverThrows (if c then p else q) := by
  split
  · exact hp
  · exact hq

/-- A handler that does not throw itself lets no exception of the program out, whatever the program
throws. -/
theorem NeverThrows.tryCatch {p : Prog I ε α} {h : ε → Prog I ε α}
    (hh : ∀ e, NeverThrows (h e)) : NeverThrows (p.tryCatch h) := by
  induction p with
  | ret a => trivial
  | throw e => exact hh e
  | call o k ih => exact fun r => ih r

end NeverThrows

/-- A protocol over an interface: which operations a state allows, which results they can have
there, and the state after an operation with its result. -/
structure Protocol (I : Interface) where
  State : Type
  may : State → I.Op → Prop
  can : State → (o : I.Op) → I.Res o → Prop
  next : State → (o : I.Op) → I.Res o → State

namespace Protocol

variable {P : Protocol I}

/-- The program keeps to the protocol from the state `t` and ends with `Q`. -/
def Follows (P : Protocol I) : P.State → Prog I ε α → (P.State → Except ε α → Prop) → Prop
  | t, .ret a, Q => Q t (.ok a)
  | t, .throw e, Q => Q t (.error e)
  | t, .call o k, Q => P.may t o ∧ ∀ r, P.can t o r → P.Follows (P.next t o r) (k r) Q

/-- What holds at the end may be weakened. -/
theorem Follows.mono {t : P.State} {p : Prog I ε α} {Q Q' : P.State → Except ε α → Prop}
    (h : P.Follows t p Q) (hQ : ∀ t r, Q t r → Q' t r) : P.Follows t p Q' := by
  induction p generalizing t with
  | ret a => exact hQ _ _ h
  | throw e => exact hQ _ _ h
  | call o k ih => exact ⟨h.1, fun r hr => ih r (h.2 r hr)⟩

/-- Sequencing. An exception of the first program ends the whole. -/
theorem Follows.bind {t : P.State} {p : Prog I ε α} {f : α → Prog I ε β}
    {Q : P.State → Except ε β → Prop}
    (h : P.Follows t p fun t' r => match r with
      | .ok a => P.Follows t' (f a) Q
      | .error e => Q t' (.error e)) : P.Follows t (p >>= f) Q := by
  induction p generalizing t with
  | ret a => exact h
  | throw e => exact h
  | call o k ih => exact ⟨h.1, fun r hr => ih r (h.2 r hr)⟩

/-- A handler takes over in the state in which the exception was thrown. A value of the program
passes it by. -/
theorem Follows.tryCatch {t : P.State} {p : Prog I ε α} {f : ε → Prog I ε α}
    {Q : P.State → Except ε α → Prop}
    (h : P.Follows t p fun t' r => match r with
      | .ok a => Q t' (.ok a)
      | .error e => P.Follows t' (f e) Q) : P.Follows t (p.tryCatch f) Q := by
  induction p generalizing t with
  | ret a => exact h
  | throw e => exact h
  | call o k ih => exact ⟨h.1, fun r hr => ih r (h.2 r hr)⟩

/-- The outcome of a program that never throws is a value. -/
theorem Follows.value {t : P.State} {p : Prog I ε α} {Q : P.State → Except ε α → Prop}
    (h : P.Follows t p Q) (hp : NeverThrows p) :
    P.Follows t p fun t r => Q t r ∧ ∃ a, r = .ok a := by
  induction p generalizing t with
  | ret a => exact ⟨h, a, rfl⟩
  | throw e => exact hp.elim
  | call o k ih => exact ⟨h.1, fun r hr => ih r (h.2 r hr) (hp r)⟩

/-- Operations that are allowed in a state and do not leave it. -/
theorem follows_of_allOps {t : P.State} {ok : I.Op → Prop}
    (hok : ∀ o, ok o → P.may t o ∧ ∀ r, P.can t o r → P.next t o r = t) {p : Prog I ε α}
    (h : AllOps ok p) : P.Follows t p fun t' _ => t' = t := by
  induction p with
  | ret a => rfl
  | throw e => rfl
  | call o k ih =>
    refine ⟨(hok o h.1).1, fun r hr => ?_⟩
    rw [(hok o h.1).2 r hr]
    exact ih r (h.2 r)

end Protocol

end Effects
