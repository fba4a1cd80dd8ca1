import Mathlib.Logic.Basic
import Mathlib.Logic.Function.Basic

/-!
# `ThinrAgent.Effects.Prog`: programs over an interface of operations

A program that calls the operating system is a tree. A node names one operation and
continues with each result the operation can have. A leaf is a returned value or a
thrown exception. The tree says nothing about what the operations do.

A `Machine` gives the operations a meaning: from a state, an operation and one answer
of the environment it computes a result and the next state. The environment's answers
stand for everything the program does not decide (a call fails, the network delivers
some bytes, the clock shows some time). `Machine.after` runs a program against a list of
answers, one answer for each operation. A list that is too short stops the program
between two operations, so one definition gives complete runs and interrupted ones.

`Machine.logged` is the same machine with a record of the operations performed, and
`Machine.performed` the record of a run.
-/

set_option autoImplicit false

namespace Effects

/-- An interface: the operations a program may call, and the type of results of each. -/
structure Interface where
  Op : Type
  Res : Op → Type

/-- A program over the interface `I` that throws `ε` and returns `α`. -/
inductive Prog (I : Interface) (ε α : Type) : Type where
  | ret (a : α)
  | throw (e : ε)
  | call (o : I.Op) (k : I.Res o → Prog I ε α)

namespace Prog

variable {I : Interface} {ε α β γ : Type}

/-- Run `p`, then `f` on its value. An exception of `p` skips `f`. -/
def bind : Prog I ε α → (α → Prog I ε β) → Prog I ε β
  | ret a, f => f a
  | throw e, _ => throw e
  | call o k, f => call o fun r => (k r).bind f

/-- Programs are put one after the other with `do`. An exception of the first one ends the
sequence. -/
instance : Monad (Prog I ε) where
  pure := ret
  bind := bind

/-- One operation as a program: it is asked, and its answer is returned. -/
def perform (o : I.Op) : Prog I ε (I.Res o) := call o ret

/-- Run `p`, and on an exception run the handler `h` in its place. What `p` did before the exception
stays done. -/
def tryCatch : Prog I ε α → (ε → Prog I ε α) → Prog I ε α
  | ret a, _ => ret a
  | throw e, h => h e
  | call o k, h => call o fun r => (k r).tryCatch h

/-- Run `p`, then `fin`, whether `p` returns or throws. -/
def ensure : Prog I ε α → Prog I ε Unit → Prog I ε α
  | ret a, fin => fin.bind fun _ => ret a
  | throw e, fin => fin.bind fun _ => throw e
  | call o k, fin => call o fun r => (k r).ensure fin

/-- `pure` is a leaf. The simp set writes leaves in this form, so the rules of the logics need one
form only. -/
@[simp] theorem pure_eq_ret (a : α) : (pure a : Prog I ε α) = ret a := rfl

/-- A program that has returned a value goes on with the rest, at that value. -/
@[simp] theorem ret_bind (a : α) (f : α → Prog I ε β) : (ret a >>= f) = f a := rfl

/-- A program that has thrown skips the rest, and its exception is the outcome. -/
@[simp] theorem throw_bind (e : ε) (f : α → Prog I ε β) : (throw e >>= f) = throw e := rfl

/-- An operation is performed first, whatever follows the program it begins. -/
@[simp] theorem call_bind (o : I.Op) (k : I.Res o → Prog I ε α) (f : α → Prog I ε β) :
    (call o k >>= f) = call o fun r => k r >>= f := rfl

/-- Sequencing is associative, so a program may be cut where a proof needs it. -/
theorem bind_assoc (p : Prog I ε α) (f : α → Prog I ε β) (g : β → Prog I ε γ) :
    (p >>= f) >>= g = p >>= fun a => f a >>= g := by
  induction p with
  | ret a => rfl
  | throw e => rfl
  | call o k ih => exact congrArg (call o) (funext fun r => ih r)

/-- A program that goes on with its own value is itself. -/
theorem bind_ret (p : Prog I ε α) : p >>= ret = p := by
  induction p with
  | ret a => rfl
  | throw e => rfl
  | call o k ih => exact congrArg (call o) (funext fun r => ih r)

/-- A handler around a sequence does not see the first program when that has one which returns. -/
theorem tryCatch_bind_tryCatch (p : Prog I ε α) (g : ε → α) (f : α → Prog I ε β)
    (h : ε → Prog I ε β) :
    (p.tryCatch (fun e => ret (g e)) >>= f).tryCatch h =
      p.tryCatch (fun e => ret (g e)) >>= fun a => (f a).tryCatch h := by
  induction p with
  | ret a => rfl
  | throw e => rfl
  | call o k ih => exact congrArg (call o) (funext fun r => ih r)

/-- The program has ended: it returned or threw. -/
def Done : Prog I ε α → Prop
  | ret _ => True
  | throw _ => True
  | call _ _ => False

instance : (p : Prog I ε α) → Decidable p.Done
  | ret _ => isTrue trivial
  | throw _ => isTrue trivial
  | call _ _ => isFalse id

/-- What the program has returned or thrown, if it has ended. -/
def result : Prog I ε α → Option (Except ε α)
  | ret a => some (.ok a)
  | throw e => some (.error e)
  | call _ _ => none

/-- A program that has ended has a result. -/
theorem exists_result {p : Prog I ε α} (h : p.Done) : ∃ r, p.result = some r := by
  cases p with
  | ret a => exact ⟨_, rfl⟩
  | throw e => exact ⟨_, rfl⟩
  | call o k => exact h.elim

/-- A program has returned a value exactly when it is the leaf of the value. -/
theorem result_eq_ok {p : Prog I ε α} {a : α} : p.result = some (.ok a) ↔ p = ret a := by
  cases p <;> simp [result]

end Prog

/-- The meaning of an interface on states `W`, against answers `C` of the environment. -/
structure Machine (I : Interface) (W C : Type) where
  exec : W → (o : I.Op) → C → I.Res o × W

/-- One performed operation together with the answer that it got. -/
abbrev Event (I : Interface) := (o : I.Op) × I.Res o

namespace Machine

variable {I : Interface} {ε α β W C : Type}

/-- Perform the next operation of the program against the answer `c`. A program that has
ended stays as it is. -/
def step (M : Machine I W C) (s : Prog I ε α × W) (c : C) : Prog I ε α × W :=
  match s.1 with
  | .call o k => (k (M.exec s.2 o c).1, (M.exec s.2 o c).2)
  | .ret _ => s
  | .throw _ => s

/-- The program and the state after one operation for each answer of `cs`. -/
def after (M : Machine I W C) (cs : List C) (s : Prog I ε α × W) : Prog I ε α × W :=
  cs.foldl M.step s

/-- Every answer of `cs` is one the environment `A` allows for the operation it answers. -/
def Admits (M : Machine I W C) (A : I.Op → C → Prop) : List C → Prog I ε α × W → Prop
  | [], _ => True
  | c :: cs, (.call o k, w) => A o c ∧ M.Admits A cs (M.step (.call o k, w) c)
  | _ :: _, (.ret _, _) => True
  | _ :: _, (.throw _, _) => True

/-- Whether an environment allows a list of answers can be decided, where each single answer can.
Sample runs are admitted by evaluation. -/
instance decidableAdmits (M : Machine I W C) (A : I.Op → C → Prop)
    [∀ o c, Decidable (A o c)] :
    (cs : List C) → (s : Prog I ε α × W) → Decidable (M.Admits A cs s)
  | [], _ => inferInstanceAs (Decidable True)
  | c :: cs, (.call o k, w) =>
    have : Decidable (M.Admits A cs (M.step (.call o k, w) c)) := decidableAdmits M A cs _
    inferInstanceAs (Decidable (A o c ∧ M.Admits A cs (M.step (.call o k, w) c)))
  | _ :: _, (.ret _, _) => inferInstanceAs (Decidable True)
  | _ :: _, (.throw _, _) => inferInstanceAs (Decidable True)

/-- The machine that also keeps the operations performed, the last one first. -/
def logged (M : Machine I W C) : Machine I (W × List (Event I)) C where
  exec s o c :=
    ((M.exec s.1 o c).1, (M.exec s.1 o c).2, ⟨o, (M.exec s.1 o c).1⟩ :: s.2)

/-- The operations the program performs against the answers `cs`, the last one first. -/
def performed (M : Machine I W C) (cs : List C) (p : Prog I ε α) (w : W) : List (Event I) :=
  (M.logged.after cs (p, (w, []))).2.2

section
variable (M : Machine I W C)

/-- Without answers nothing happens: the program and the world stay. -/
@[simp] theorem after_nil (s : Prog I ε α × W) : M.after [] s = s := rfl

/-- Answers are given one after the other, so a run may be cut after any of them. -/
theorem after_append (cs ds : List C) (s : Prog I ε α × W) :
    M.after (cs ++ ds) s = M.after ds (M.after cs s) := List.foldl_append

/-- One operation: the machine executes it, and the program goes on with its result. -/
@[simp] theorem step_call (o : I.Op) (k : I.Res o → Prog I ε α) (w : W) (c : C) :
    M.step (.call o k, w) c = (k (M.exec w o c).1, (M.exec w o c).2) := rfl

/-- A program that has returned does not move. -/
@[simp] theorem step_ret (a : α) (w : W) (c : C) :
    M.step ((.ret a : Prog I ε α), w) c = (.ret a, w) := rfl

/-- Nor does one that has thrown: an answer to it is ignored. -/
@[simp] theorem step_throw (e : ε) (w : W) (c : C) :
    M.step ((.throw e : Prog I ε α), w) c = (.throw e, w) := rfl

/-- A program that has ended does not move. -/
theorem after_of_done (cs : List C) {p : Prog I ε α} (hp : p.Done) (w : W) :
    M.after cs (p, w) = (p, w) := by
  induction cs with
  | nil => rfl
  | cons c cs ih =>
    cases p with
    | ret a => exact ih
    | throw e => exact ih
    | call o k => exact hp.elim

end

end Machine

end Effects
