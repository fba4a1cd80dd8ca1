import Mathlib.Data.List.Pairwise
import ThinrAgent.Effects.CrashLogic

/-!
# `ThinrAgent.Effects.Pacing`: programs that read a clock and wait

`I.timed` is the interface `I` with a clock and a wait, and `Machine.timed` its machine: every
operation takes the time its answer says. The log keeps each operation with the time at which it
was called, the last one first.

`AtMost kind n p` says that `p` performs at most `n` operations of a kind, whatever results it gets.
A program with a budget of one that starts when the last operation of the kind is `gap` old leaves
the log `Paced` (`cwp_timed`), so a loop that waits between its rounds keeps the operations of the
kind apart. `spaced_window` is what this means for a window of time: a bound on their number.
-/

set_option autoImplicit false

namespace Effects

variable {I H : Interface} {ε α β W C : Type}

namespace Prog

/-- The program over an interface in which `f o` is the operation `o`. -/
def through (f : I.Op → H.Op) (res : ∀ o, H.Res (f o) → I.Res o) : Prog I ε α → Prog H ε α
  | .ret a => .ret a
  | .throw e => .throw e
  | .call o k => .call (f o) fun r => (k (res o r)).through f res

end Prog

/-! ### The number of operations of a kind -/

/-- The program performs at most `n` operations of the kind, whatever results it gets. -/
def AtMost (kind : I.Op → Bool) : Nat → Prog I ε α → Prop
  | _, .ret _ => True
  | _, .throw _ => True
  | n, .call o k =>
    (kind o = true → 0 < n) ∧ ∀ r, AtMost kind (if kind o = true then n - 1 else n) (k r)

section AtMost

variable {kind : I.Op → Bool} {m n : Nat}

/-- The bound on the number of operations may be enlarged. -/
theorem AtMost.mono {p : Prog I ε α} (h : AtMost kind n p) (hle : n ≤ m) : AtMost kind m p := by
  induction p generalizing m n with
  | ret a => trivial
  | throw e => trivial
  | call o k ih =>
    refine ⟨fun hkind => ?_, fun r => ih r (h.2 r) ?_⟩
    · have := h.1 hkind
      omega
    · split <;> omega

/-- An operation that is not of the kind. -/
theorem AtMost.call {o : I.Op} {k : I.Res o → Prog I ε α} (ho : kind o = false)
    (hk : ∀ r, AtMost kind n (k r)) : AtMost kind n (.call o k) := by
  refine ⟨fun hkind => ?_, fun r => ?_⟩
  · rw [ho] at hkind
    cases hkind
  · rw [ho]
    exact hk r

/-- An operation of another kind does not count. -/
theorem AtMost.other {o : I.Op} (ho : kind o = false) :
    AtMost kind 0 (.call o .ret : Prog I ε (I.Res o)) :=
  .call ho fun _ => trivial

/-- A program that performs no operation of the kind. -/
theorem AllOps.atMost_zero {p : Prog I ε α} (h : AllOps (fun o => kind o = false) p) :
    AtMost kind 0 p := by
  induction p with
  | ret a => trivial
  | throw e => trivial
  | call o k ih => exact .call h.1 fun r => ih r (h.2 r)

/-- A program of one operation asks for at most one of any kind. -/
theorem AtMost.single (o : I.Op) : AtMost kind 1 (.call o .ret : Prog I ε (I.Res o)) :=
  ⟨fun _ => Nat.one_pos, fun _ => trivial⟩

/-- The bounds of the two parts of a sequence add up. -/
theorem AtMost.bind {p : Prog I ε α} {f : α → Prog I ε β} (hp : AtMost kind n p)
    (hf : ∀ a, AtMost kind m (f a)) : AtMost kind (n + m) (p >>= f) := by
  induction p generalizing n with
  | ret a => exact (hf a).mono (by omega)
  | throw e => trivial
  | call o k ih =>
    refine ⟨fun hkind => ?_, fun r => (ih r (hp.2 r)).mono ?_⟩
    · have := hp.1 hkind
      omega
    · split
      · have := hp.1 ‹_›
        omega
      · omega

/-- The bound of a final part is added to the one of the program it follows. -/
theorem AtMost.ensure {p : Prog I ε α} {fin : Prog I ε Unit} (hp : AtMost kind n p)
    (hfin : AtMost kind m fin) : AtMost kind (n + m) (p.ensure fin) := by
  -- The program that ends first is followed by the last one.
  have hend (q : Prog I ε α) (hq : AtMost kind 0 q) : AtMost kind (n + m) (fin >>= fun _ => q) :=
    (hfin.bind fun _ => hq).mono (by omega)
  induction p generalizing n with
  | ret a => exact hend (.ret a) trivial
  | throw e => exact hend (.throw e) trivial
  | call o k ih =>
    refine ⟨fun hkind => ?_, fun r => (ih r (hp.2 r) fun q hq => ?_).mono ?_⟩
    · have := hp.1 hkind
      omega
    · exact (hfin.bind fun _ => hq).mono (by omega)
    · split
      · have := hp.1 ‹_›
        omega
      · omega

/-- A choice between two programs with one bound has this bound. -/
theorem AtMost.ite {c : Prop} [Decidable c] {p q : Prog I ε α} (hp : AtMost kind n p)
    (hq : AtMost kind n q) : AtMost kind n (if c then p else q) := by
  split
  · exact hp
  · exact hq

/-- A program that is carried over to another interface performs as many operations of a kind as
before, where the kind of an operation is the one of its image. -/
theorem AtMost.through {kind : H.Op → Bool} {f : I.Op → H.Op}
    {res : ∀ o, H.Res (f o) → I.Res o} {p : Prog I ε α}
    (h : AtMost (fun o => kind (f o)) n p) : AtMost kind n (p.through f res) := by
  induction p generalizing n with
  | ret a => trivial
  | throw e => trivial
  | call o k ih => exact ⟨h.1, fun r => ih _ (h.2 _)⟩

end AtMost

/-! ### The values -/

/-- Every value that the program returns satisfies `R`. -/
def Returns (R : α → Prop) : Prog I ε α → Prop
  | .ret a => R a
  | .throw _ => True
  | .call _ k => ∀ r, Returns R (k r)

section Returns

variable {R : α → Prop} {R' : β → Prop}

/-- Every program returns some value or none, so the trivial condition holds of what it returns. -/
theorem returns_any (p : Prog I ε α) : Returns (fun _ => True) p := by
  induction p with
  | ret a => trivial
  | throw e => trivial
  | call o k ih => exact ih

/-- What a sequence returns is what its second part returns for a value the first can return. -/
theorem Returns.bind {p : Prog I ε α} {f : α → Prog I ε β} (hp : Returns R p)
    (hf : ∀ a, R a → Returns R' (f a)) : Returns R' (p >>= f) := by
  induction p with
  | ret a => exact hf a hp
  | throw e => trivial
  | call o k ih => exact fun r => ih r (hp r)

/-- A program that is carried over to another interface returns the same values. -/
theorem Returns.through {f : I.Op → H.Op} {res : ∀ o, H.Res (f o) → I.Res o}
    {p : Prog I ε α} (hp : Returns R p) : Returns R (p.through f res) := by
  induction p with
  | ret a => exact hp
  | throw e => trivial
  | call o k ih => exact fun r => ih _ (hp _)

end Returns

/-! ### The clock -/

/-- The operations of `I`, a clock, and a wait for a time that can be interrupted. -/
inductive TimedOp (I : Interface) where
  | op (o : I.Op)
  | now
  | waitUntil (t : Nat)

/-- The result of a wait says whether it was interrupted. -/
def Interface.timed (I : Interface) : Interface where
  Op := TimedOp I
  Res
    | .op o => I.Res o
    | .now => Nat
    | .waitUntil _ => Bool

/-- The program in the interface with a clock. It never looks at the clock itself, but each of its
operations now takes time. -/
def Prog.timed (p : Prog I ε α) : Prog I.timed ε α := p.through (H := I.timed) .op fun _ r => r

/-- Read the clock: the call of the operation `now`, whose answer is the reading. -/
def now : Prog I.timed ε Nat := .call (I := I.timed) TimedOp.now .ret

/-- Wait until the clock reaches `t`. The answer says whether something else has ended the wait
before. -/
def waitUntil (t : Nat) : Prog I.timed ε Bool := .call (I := I.timed) (TimedOp.waitUntil t) .ret

/-- A state with a clock and the log. -/
structure Timed (I : Interface) (W : Type) where
  world : W
  clock : Nat
  log : List (Nat × TimedOp I)

/-- The answer to an operation, with the time that the operation takes. -/
structure Tick (C : Type) where
  answer : C
  elapsed : Nat
  interrupted : Bool

namespace Timed

/-- The operation `o` is called, and the clock shows `clock` when it returns. -/
def record (s : Timed I W) (o : TimedOp I) (clock : Nat) : Timed I W :=
  { s with clock := clock, log := (s.clock, o) :: s.log }

end Timed

/-- A wait that is not interrupted ends when its time has come. -/
def Machine.timed (M : Machine I W C) : Machine I.timed (Timed I W) (Tick C) where
  exec s
    | .op o, c =>
      ((M.exec s.world o c.answer).1,
        { s.record (.op o) (s.clock + c.elapsed) with world := (M.exec s.world o c.answer).2 })
    | .now, c => (s.clock, s.record .now (s.clock + c.elapsed))
    | .waitUntil t, c =>
      (c.interrupted, s.record (.waitUntil t)
        ((if c.interrupted then s.clock else max s.clock t) + c.elapsed))

/-! ### Operations that are apart -/

/-- Times that are at least `gap` apart, the last one first. -/
def Spaced (gap : Nat) (times : List Nat) : Prop :=
  times.Pairwise fun later earlier => earlier + gap ≤ later

/-- In a window of length `len` there are at most `len / gap + 1` of the times. -/
theorem spaced_window {gap : Nat} (hgap : 0 < gap) {times : List Nat} (h : Spaced gap times)
    (start len : Nat) :
    (times.filter fun t => start ≤ t ∧ t ≤ start + len).length ≤ len / gap + 1 := by
  -- The induction is on the times, the last one first, with the length of the window left free.
  induction times generalizing len with
  | nil => exact Nat.zero_le _
  | cons last earlier ih =>
    obtain ⟨hlast, hearlier⟩ := List.pairwise_cons.mp h
    by_cases hin : start ≤ last ∧ last ≤ start + len
    · rw [List.filter_cons_of_pos (by simpa using hin), List.length_cons]
      rcases Nat.lt_or_ge last (start + gap) with hshort | hlong
      · -- Nothing before the last one is in the window.
        have hnone : (earlier.filter fun t => start ≤ t ∧ t ≤ start + len) = [] := by
          rw [List.filter_eq_nil_iff]
          intro t ht
          have := hlast t ht
          simp only [decide_eq_true_eq]
          omega
        rw [hnone]
        simp
      · -- What is before the last one is in a window that is shorter by `gap`.
        have hle : (earlier.filter fun t => start ≤ t ∧ t ≤ start + len).length ≤
            (earlier.filter fun t => start ≤ t ∧ t ≤ start + (len - gap)).length := by
          rw [← List.countP_eq_length_filter, ← List.countP_eq_length_filter]
          refine List.countP_mono_left fun t ht hwin => ?_
          have := hlast t ht
          simp only [decide_eq_true_eq] at hwin ⊢
          omega
        have hwindow := ih hearlier (len - gap)
        have hdiv : len / gap = (len - gap) / gap + 1 := by
          rw [Nat.div_eq_sub_div hgap (by omega)]
        omega
    · rw [List.filter_cons_of_neg (by simpa using hin)]
      exact ih hearlier len

namespace Timed

variable (gap limit : Nat) (kind : I.Op → Bool)

/-- The operation is one of the kind. Reading the clock and waiting are of no kind. -/
def ofKind : TimedOp I → Bool
  | .op o => kind o
  | .now => false
  | .waitUntil _ => false

/-- The times at which an operation of the kind was called, the last one first. -/
def calls (s : Timed I W) : List Nat := (s.log.filter fun e => ofKind kind e.2).map Prod.fst

/-- The operations of the kind are `gap` apart, and every wait is for a time at most `limit`
ahead. -/
structure Paced (s : Timed I W) : Prop where
  spaced : Spaced gap (s.calls kind)
  past : ∀ t ∈ s.calls kind, t ≤ s.clock
  waits : ∀ t until', (t, .waitUntil until') ∈ s.log → until' ≤ t + limit

/-- The last operation of the kind is `gap` before the time `t`. -/
def Rested (t : Nat) (s : Timed I W) : Prop := ∀ r ∈ s.calls kind, r + gap ≤ t

variable {gap limit kind} {s : Timed I W} {o : TimedOp I} {clock t : Nat}

/-- The times at which operations of a kind were called, after one more operation: the clock comes
in front when the operation is of the kind. -/
theorem calls_record : (s.record o clock).calls kind =
    if ofKind kind o = true then s.clock :: s.calls kind else s.calls kind := by
  unfold calls record
  by_cases h : ofKind kind o = true
  · rw [if_pos h, List.filter_cons_of_pos (by simpa using h), List.map_cons]
  · rw [if_neg h, List.filter_cons_of_neg (by simpa using h)]

/-- An operation that is not of the kind. -/
theorem Paced.record (h : s.Paced gap limit kind) (hkind : ofKind kind o = false)
    (hclock : s.clock ≤ clock) (hwait : ∀ u, o = .waitUntil u → u ≤ s.clock + limit) :
    (s.record o clock).Paced gap limit kind := by
  have hcalls : (s.record o clock).calls kind = s.calls kind := by
    rw [calls_record, hkind]
    rfl
  refine ⟨?_, ?_, ?_⟩
  · rw [hcalls]
    exact h.spaced
  · intro t ht
    rw [hcalls] at ht
    exact Nat.le_trans (h.past t ht) hclock
  · intro t u hmem
    rcases List.mem_cons.mp hmem with heq | hmem
    · cases heq
      exact hwait u rfl
    · exact h.waits t u hmem

/-- An operation of the kind, when the last one is `gap` old. -/
theorem Paced.record_kind (h : s.Paced gap limit kind) (hrested : s.Rested gap kind s.clock)
    {o : I.Op} (hkind : kind o = true) (hclock : s.clock ≤ clock) :
    (s.record (.op o) clock).Paced gap limit kind := by
  have hcalls : (s.record (.op o) clock).calls kind = s.clock :: s.calls kind := by
    rw [calls_record, if_pos (by exact hkind)]
  refine ⟨?_, ?_, ?_⟩
  · rw [hcalls]
    exact List.pairwise_cons.mpr ⟨fun t ht => hrested t ht, h.spaced⟩
  · intro t ht
    rw [hcalls] at ht
    rcases List.mem_cons.mp ht with rfl | ht
    · exact hclock
    · exact Nat.le_trans (h.past t ht) hclock
  · intro t u hmem
    rcases List.mem_cons.mp hmem with heq | hmem
    · cases heq
    · exact h.waits t u hmem

/-- What has rested until `t` has rested until every later time. -/
theorem Rested.mono {t' : Nat} (h : s.Rested gap kind t) (hle : t ≤ t') : s.Rested gap kind t' :=
  fun r hr => Nat.le_trans (h r hr) hle

/-- An operation of another kind does not disturb the rest. -/
theorem Rested.record (h : s.Rested gap kind t) (hkind : ofKind kind o = false) :
    (s.record o clock).Rested gap kind t := by
  intro r hr
  rw [calls_record, hkind] at hr
  exact h r hr

/-- After a time `gap` in the future, whatever was called so far is `gap` old. -/
theorem Paced.rested (h : s.Paced gap limit kind) (ht : s.clock + gap ≤ t) :
    s.Rested gap kind t := by
  intro r hr
  have := h.past r hr
  omega

end Timed

/-! ### The rules -/

section Rules

open Timed

variable {M : Machine I W C} {A : I.timed.Op → Tick C → Prop} {gap limit : Nat}
  {kind : I.Op → Bool} {s : Timed I W} {Q : Except ε α → Timed I W → Prop}

/-- The clock is read. What is rested stays so. -/
theorem cwp_now {k : Nat → Prog I.timed ε α} (h : s.Paced gap limit kind)
    (hk : ∀ s', s'.Paced gap limit kind → s.clock ≤ s'.clock →
      (∀ t, s.Rested gap kind t → s'.Rested gap kind t) →
      cwp M.timed A (fun v => v.Paced gap limit kind) (k s.clock) Q s') :
    cwp M.timed A (fun v => v.Paced gap limit kind) (now >>= k) Q s := by
  refine ⟨h, fun c _ => ?_⟩
  have hclock : s.clock ≤ s.clock + c.elapsed := Nat.le_add_right _ _
  have hpaced : (s.record .now (s.clock + c.elapsed)).Paced gap limit kind :=
    h.record rfl hclock fun _ hu => by cases hu
  exact hk _ hpaced hclock fun t ht => ht.record rfl

/-- A wait for a time that is at most `limit` ahead. -/
theorem cwp_waitUntil {t : Nat} {k : Bool → Prog I.timed ε α} (h : s.Paced gap limit kind)
    (hrested : s.Rested gap kind t) (ht : t ≤ s.clock + limit)
    (hk : ∀ s' stopping, s'.Paced gap limit kind →
      (stopping = false → s'.Rested gap kind s'.clock) →
      cwp M.timed A (fun v => v.Paced gap limit kind) (k stopping) Q s') :
    cwp M.timed A (fun v => v.Paced gap limit kind) (waitUntil t >>= k) Q s := by
  refine ⟨h, fun c _ => hk _ _ (h.record rfl ?_ ?_) fun hstop => ?_⟩
  · split <;> omega
  · intro u hu
    cases hu
    exact ht
  · -- A wait that was not interrupted has lasted until its time.
    have hon : c.interrupted = false := hstop
    refine (hrested.record rfl).mono ?_
    show t ≤ (if c.interrupted = true then s.clock else max s.clock t) + c.elapsed
    rw [if_neg (by simp [hon])]
    omega

/-- A program that performs at most one operation of the kind, and none unless the last one is
`gap` old. Without a budget it keeps what is rested. -/
theorem cwp_timed {n : Nat} {p : Prog I ε α} {R : α → Prop} (hp : AtMost kind n p) (hn : n ≤ 1)
    (hreturns : Returns R p) (h : s.Paced gap limit kind)
    (hrested : 0 < n → s.Rested gap kind s.clock) :
    cwp M.timed A (fun v => v.Paced gap limit kind) p.timed
      (fun r v => (∀ a, r = .ok a → R a) ∧ s.clock ≤ v.clock ∧
        (n = 0 → ∀ t, s.Rested gap kind t → v.Rested gap kind t)) s := by
  -- The induction is on the program, with the budget and the state left free.
  induction p generalizing n s with
  | ret a =>
    refine ⟨h, fun b hb => ?_, Nat.le_refl _, fun _ _ ht => ht⟩
    cases hb
    exact hreturns
  | throw e => exact ⟨h, by simp, Nat.le_refl _, fun _ _ ht => ht⟩
  | call o k ih =>
    refine ⟨h, fun c _ => ?_⟩
    have hclock : s.clock ≤ s.clock + c.elapsed := Nat.le_add_right _ _
    by_cases hkind : kind o = true
    · -- The budget is spent, so the rest performs no operation of the kind.
      have hpos := hp.1 hkind
      have hpaced := h.record_kind (hrested hpos) hkind hclock
      have hrest := hp.2 (M.exec s.world o c.answer).1
      rw [if_pos hkind] at hrest
      refine cwp_mono (ih _ hrest (by omega) (hreturns _)
        ⟨hpaced.spaced, hpaced.past, hpaced.waits⟩ (by omega)) (fun _ hv => hv) ?_
      intro r v _ hend
      exact ⟨hend.1, Nat.le_trans hclock hend.2.1, by omega⟩
    · -- The time only goes on, and what was rested stays so.
      have hother : ofKind kind (.op o) = false := by simpa [ofKind] using hkind
      have hpaced := h.record hother hclock fun u hu => by cases hu
      have hkeeps (t : Nat) (ht : s.Rested gap kind t) :
          (s.record (.op o) (s.clock + c.elapsed)).Rested gap kind t := ht.record hother
      have hrest := hp.2 (M.exec s.world o c.answer).1
      rw [if_neg hkind] at hrest
      refine cwp_mono (ih _ hrest hn (hreturns _)
        ⟨hpaced.spaced, hpaced.past, hpaced.waits⟩
        fun hpos => hkeeps _ ((hrested hpos).mono hclock)) (fun _ hv => hv) ?_
      intro r v _ hend
      exact ⟨hend.1, Nat.le_trans hclock hend.2.1, fun hzero t ht =>
        hend.2.2 hzero t (hkeeps t ht)⟩

end Rules

end Effects
