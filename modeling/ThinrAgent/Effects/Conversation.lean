import ThinrAgent.Effects.Protocol

/-!
# `ThinrAgent.Effects.Conversation`: rules about what has happened before

A program that talks to its environment is judged by its log: the operations it has performed, with
their results, the last one first. `Runs can p log q` says that `p` has performed `log` and is `q`
now, where `can` says which results are possible after a log.

A rule `may log o` allows the operation `o` after `log`. With the log as the state of a protocol
(`byLog`), `Runs.follows` says that a program that follows the protocol keeps to the rule in every
run, and `Runs.obeys` reads this off the log of the run: the rule holds for each event and what
stands behind it.

`Keeps` is a program between two assertions about the state, with an invariant that also holds when
the program throws. Its rules follow the program.
-/

set_option autoImplicit false

namespace Effects

variable {I : Interface} {ε α β : Type}

/-- The program `p` has performed `log`, the last event first, and is the program `q` now. -/
inductive Runs (can : List (Event I) → (o : I.Op) → I.Res o → Prop) (p : Prog I ε α) :
    List (Event I) → Prog I ε α → Prop
  | start : Runs can p [] p
  | step {log : List (Event I)} {o : I.Op} {k : I.Res o → Prog I ε α}
      (hrun : Runs can p log (.call o k)) (r : I.Res o) (hr : can log o r) :
      Runs can p (⟨o, r⟩ :: log) (k r)

namespace Protocol

/-- The protocol whose state is the log itself, so that what may come next is a property of what was
done so far. -/
abbrev byLog (may : List (Event I) → I.Op → Prop)
    (can : List (Event I) → (o : I.Op) → I.Res o → Prop) : Protocol I where
  State := List (Event I)
  may := may
  can := can
  next log o r := ⟨o, r⟩ :: log

/-- From a state with `Inv` and `Pre` the program keeps to the protocol. The end has `Inv` again,
and `Post` of a returned value. -/
def Keeps (P : Protocol I) (Inv Pre : P.State → Prop) (p : Prog I ε α)
    (Post : P.State → α → Prop) : Prop :=
  ∀ t, Inv t → Pre t → P.Follows t p fun t' r => Inv t' ∧ ∀ a, r = .ok a → Post t' a

section Keeps

variable {P : Protocol I} {Inv Pre : P.State → Prop} {Post : P.State → α → Prop}
  {Post' : P.State → β → Prop}

/-- A value that is returned at once has to satisfy the postcondition already. -/
theorem Keeps.ret {a : α} (h : ∀ t, Inv t → Pre t → Post t a) :
    P.Keeps Inv Pre (.ret a : Prog I ε α) Post := by
  intro t hinv hpre
  refine ⟨hinv, fun b hb => ?_⟩
  cases hb
  exact h t hinv hpre

/-- An exception keeps the invariant, and the postcondition says nothing of it. -/
theorem Keeps.throw {e : ε} : P.Keeps Inv Pre (.throw e : Prog I ε α) Post :=
  fun _ hinv _ => ⟨hinv, fun _ h => by cases h⟩

/-- One operation that is allowed, and a continuation that keeps to the protocol after every
result. -/
theorem Keeps.call {o : I.Op} {k : I.Res o → Prog I ε α}
    (hmay : ∀ t, Inv t → Pre t → P.may t o)
    (hk : ∀ t r, Inv t → Pre t → P.can t o r → P.Follows (P.next t o r) (k r)
      fun t' r => Inv t' ∧ ∀ a, r = .ok a → Post t' a) :
    P.Keeps Inv Pre (.call o k) Post :=
  fun t hinv hpre => ⟨hmay t hinv hpre, fun r hr => hk t r hinv hpre hr⟩

/-- One operation keeps the invariant when the protocol allows it and every answer leads to a state
in which the invariant holds again. -/
theorem Keeps.single {o : I.Op} {Post : P.State → I.Res o → Prop}
    (hmay : ∀ t, Inv t → Pre t → P.may t o)
    (hnext : ∀ t r, Inv t → Pre t → P.can t o r →
      Inv (P.next t o r) ∧ Post (P.next t o r) r) :
    P.Keeps Inv Pre (.call o .ret : Prog I ε (I.Res o)) Post := by
  refine .call hmay fun t r hinv hpre hr => ?_
  obtain ⟨hinv', hpost⟩ := hnext t r hinv hpre hr
  refine ⟨hinv', fun a ha => ?_⟩
  cases ha
  exact hpost

/-- A sequence, with an assertion between its parts. -/
theorem Keeps.bind {Mid : P.State → α → Prop} {p : Prog I ε α} {f : α → Prog I ε β}
    (hp : P.Keeps Inv Pre p Mid) (hf : ∀ a, P.Keeps Inv (fun t => Mid t a) (f a) Post') :
    P.Keeps Inv Pre (p >>= f) Post' := by
  intro t hinv hpre
  refine Follows.bind ((hp t hinv hpre).mono fun t' r h => ?_)
  cases r with
  | ok a => exact hf a t' h.1 (h.2 a rfl)
  | error e => exact ⟨h.1, fun _ h => by cases h⟩

/-- The same, with the assertion in the middle given. -/
theorem Keeps.through (Mid : P.State → α → Prop) {p : Prog I ε α} {f : α → Prog I ε β}
    (hp : P.Keeps Inv Pre p Mid) (hf : ∀ a, P.Keeps Inv (fun t => Mid t a) (f a) Post') :
    P.Keeps Inv Pre (p >>= f) Post' := hp.bind hf

/-- A handler that needs no more than the invariant. -/
theorem Keeps.tryCatch {p : Prog I ε α} {f : ε → Prog I ε α}
    (hp : P.Keeps Inv Pre p Post) (hf : ∀ e, P.Keeps Inv (fun _ => True) (f e) Post) :
    P.Keeps Inv Pre (p.tryCatch f) Post := by
  intro t hinv hpre
  refine Follows.tryCatch ((hp t hinv hpre).mono fun t' r h => ?_)
  cases r with
  | ok a => exact h
  | error e => exact hf e t' h.1 trivial

/-- A choice, where each branch may use its condition. -/
theorem Keeps.ite {c : Prop} [Decidable c] {p q : Prog I ε α} (hp : c → P.Keeps Inv Pre p Post)
    (hq : ¬ c → P.Keeps Inv Pre q Post) : P.Keeps Inv Pre (if c then p else q) Post := by
  split
  · exact hp ‹c›
  · exact hq ‹¬ c›

/-- A stronger precondition and a weaker postcondition, both under the invariant. -/
theorem Keeps.mono {Pre' : P.State → Prop} {Post₁ : P.State → α → Prop} {p : Prog I ε α}
    (hp : P.Keeps Inv Pre p Post) (hpre : ∀ t, Inv t → Pre' t → Pre t)
    (hpost : ∀ t a, Inv t → Post t a → Post₁ t a) : P.Keeps Inv Pre' p Post₁ := by
  intro t hinv ht
  refine (hp t hinv (hpre t hinv ht)).mono fun t' r h => ⟨h.1, fun a ha => ?_⟩
  exact hpost t' a h.1 (h.2 a ha)

/-- The value of the program is of no interest. -/
theorem Keeps.plain {p : Prog I ε α} {Post : P.State → α → Prop} (hp : P.Keeps Inv Pre p Post) :
    P.Keeps Inv Pre p fun _ _ => True := hp.mono (fun _ _ h => h) fun _ _ _ _ => trivial

/-- A program that needs nothing beyond the invariant keeps it under every further assertion, which
lets its lemma be used in any place. -/
theorem Keeps.weaken {p : Prog I ε α} {Post : P.State → α → Prop}
    (hp : P.Keeps Inv (fun _ => True) p Post) : P.Keeps Inv Pre p Post :=
  hp.mono (fun _ _ _ => trivial) fun _ _ _ h => h

/-- A program between two assertions, with a program behind it that has its own end. -/
theorem Keeps.follows_bind {p : Prog I ε α} {f : α → Prog I ε β} {t : P.State}
    {Q : P.State → Except ε β → Prop} (hp : P.Keeps Inv Pre p Post) (hinv : Inv t) (hpre : Pre t)
    (hok : ∀ t' a, Inv t' → Post t' a → P.Follows t' (f a) Q)
    (herror : ∀ t' e, Inv t' → Q t' (.error e)) : P.Follows t (p >>= f) Q := by
  refine Follows.bind ((hp t hinv hpre).mono fun t' r h => ?_)
  cases r with
  | ok a => exact hok t' a h.1 (h.2 a rfl)
  | error e => exact herror t' e h.1

/-- A handler that asks nothing turns every exception into a value, so an end for the value is
enough. -/
theorem Follows.tryCatch_ret {p : Prog I ε α} {f : ε → α} {t : P.State}
    {Q : P.State → Except ε α → Prop} (hp : P.Follows t p Q)
    (herror : ∀ t' e, Q t' (.error e) → Q t' (.ok (f e))) :
    P.Follows t (p.tryCatch fun e => .ret (f e)) Q := by
  refine Follows.tryCatch (hp.mono fun t' r h => ?_)
  cases r with
  | ok a => exact h
  | error e => exact herror t' e h

end Keeps

end Protocol

section Runs

variable {may : List (Event I) → I.Op → Prop}
  {can : List (Event I) → (o : I.Op) → I.Res o → Prop}

open Protocol

/-- The rest of a run still follows the protocol, and each event of the log was allowed after what
stands behind it. -/
theorem Runs.follows {p q : Prog I ε α} {log : List (Event I)}
    {Q : List (Event I) → Except ε α → Prop} (hrun : Runs can p log q)
    (hp : (byLog may can).Follows [] p Q) :
    (byLog may can).Follows log q Q ∧
      ∀ o r before, (⟨o, r⟩ :: before) <:+ log → may before o := by
  induction hrun with
  | start => exact ⟨hp, fun o r before h => absurd (List.suffix_nil.mp h) (List.cons_ne_nil _ _)⟩
  | step hrun r hr ih =>
    obtain ⟨⟨hmay, hnext⟩, hbefore⟩ := ih
    refine ⟨hnext r hr, fun o' r' before h => ?_⟩
    rcases List.suffix_cons_iff.mp h with h | h
    · cases h
      exact hmay
    · exact hbefore o' r' before h

/-- In every run of a program that follows the protocol, each event is allowed after the ones
before it. -/
theorem Runs.obeys {p q : Prog I ε α} {log : List (Event I)}
    {Q : List (Event I) → Except ε α → Prop} (hrun : Runs can p log q)
    (hp : (byLog may can).Follows [] p Q) {o : I.Op} {r : I.Res o} {before : List (Event I)}
    (h : (⟨o, r⟩ :: before) <:+ log) : may before o :=
  (hrun.follows hp).2 o r before h

/-- What holds at the end of a run that has ended. -/
theorem Runs.outcome {p q : Prog I ε α} {log : List (Event I)}
    {Q : List (Event I) → Except ε α → Prop} (hrun : Runs can p log q)
    (hp : (byLog may can).Follows [] p Q) {r : Except ε α} (hr : q.result = some r) : Q log r := by
  have hq := (hrun.follows hp).1
  cases q with
  | ret a => cases hr; exact hq
  | throw e => cases hr; exact hq
  | call o k => cases hr

/-- The run in which the environment answers with `reply`, for at most so many operations: the log
and the program that is left. It stops at an operation without an answer. -/
def converse (reply : List (Event I) → (o : I.Op) → Option (I.Res o)) :
    Nat → List (Event I) → Prog I ε α → List (Event I) × Prog I ε α
  | 0, log, p => (log, p)
  | _ + 1, log, .ret a => (log, .ret a)
  | _ + 1, log, .throw e => (log, .throw e)
  | n + 1, log, .call o k =>
    match reply log o with
    | none => (log, .call o k)
    | some r => converse reply n (⟨o, r⟩ :: log) (k r)

/-- A conversation with possible answers is a run. -/
theorem runs_converse {reply : List (Event I) → (o : I.Op) → Option (I.Res o)}
    (hreply : ∀ log o r, reply log o = some r → can log o r) (n : Nat) {p q : Prog I ε α}
    {log : List (Event I)} (hrun : Runs can p log q) :
    Runs can p (converse reply n log q).1 (converse reply n log q).2 := by
  induction n generalizing log q with
  | zero => exact hrun
  | succ n ih =>
    cases q with
    | ret a => exact hrun
    | throw e => exact hrun
    | call o k =>
      unfold converse
      split
      · exact hrun
      · next r hr => exact ih (hrun.step r (hreply log o r hr))

end Runs

end Effects
