import ThinrAgent.Effects.Protocol

/-!
# `ThinrAgent.Effects.Pool`: threads that share a state

A `Pool` is one program for each thread, the state they share, and the record of the
operations performed with the thread of each, the last one first. One step lets one thread
perform its next operation. A schedule is any list of threads, each with the answer the
environment gives to its operation, so a statement about all schedules is a statement about
all interleavings. An operation may wait for the end of another thread (`waits`).

`Pool.run_inv` is the invariant rule. It may use a condition `P` that every step of the
schedule meets. `Pool.meets_iff` is the rule for a condition that is exact: without it at some
step, the property fails.
-/

set_option autoImplicit false

namespace Effects

/-- Threads, the state they share, and what they have done. -/
structure Pool (I : Interface) (ε α W ι : Type) where
  threads : ι → Prog I ε α
  world : W
  log : List (ι × I.Op) := []

namespace Pool

variable {I : Interface} {ε α W C ι : Type} [DecidableEq ι]

/-- The operation `o` need not wait, or waits for a thread that has ended. -/
def Ready (waits : I.Op → Option ι) (s : Pool I ε α W ι) (o : I.Op) : Prop :=
  match waits o with
  | none => True
  | some j => (s.threads j).Done

instance (waits : I.Op → Option ι) (s : Pool I ε α W ι) (o : I.Op) :
    Decidable (s.Ready waits o) := by
  unfold Ready
  split <;> infer_instance

/-- The thread `i` performs the operation `o` and goes on with `k`. -/
def perform (M : ι → Machine I W C) (s : Pool I ε α W ι) (i : ι) (c : C) (o : I.Op)
    (k : I.Res o → Prog I ε α) : Pool I ε α W ι where
  threads := Function.update s.threads i (k ((M i).exec s.world o c).1)
  world := ((M i).exec s.world o c).2
  log := (i, o) :: s.log

/-- One step. A thread that has ended, or that has to wait, does nothing. -/
def step (M : ι → Machine I W C) (waits : I.Op → Option ι) (s : Pool I ε α W ι) (m : ι × C) :
    Pool I ε α W ι :=
  match s.threads m.1 with
  | .call o k => if s.Ready waits o then s.perform M m.1 m.2 o k else s
  | .ret _ => s
  | .throw _ => s

/-- The pool after a schedule: the steps of the schedule one after another, each by the thread and
with the choice that it names. -/
def run (M : ι → Machine I W C) (waits : I.Op → Option ι) (ms : List (ι × C))
    (s : Pool I ε α W ι) : Pool I ε α W ι :=
  ms.foldl (step M waits) s

/-- Every step of the schedule meets the condition `P` on the pool and the move. -/
def Meets (M : ι → Machine I W C) (waits : I.Op → Option ι)
    (P : Pool I ε α W ι → ι × C → Prop) : List (ι × C) → Pool I ε α W ι → Prop
  | [], _ => True
  | m :: ms, s => P s m ∧ Meets M waits P ms (step M waits s m)

/-- Every answer of the schedule is one the environment `A` allows for the operation it
answers. -/
def Admits (M : ι → Machine I W C) (waits : I.Op → Option ι) (A : I.Op → C → Prop) :
    List (ι × C) → Pool I ε α W ι → Prop :=
  Meets M waits fun s m => ∀ o k, s.threads m.1 = .call o k → A o m.2

variable {M : ι → Machine I W C} {waits : I.Op → Option ι} {s : Pool I ε α W ι}

/-- The thread that performs an operation goes on with the result. -/
@[simp] theorem threads_perform_self (i : ι) (c : C) (o : I.Op) (k : I.Res o → Prog I ε α) :
    (s.perform M i c o k).threads i = k ((M i).exec s.world o c).1 :=
  Function.update_self ..

/-- When one thread performs an operation, the other threads stay where they are. -/
theorem threads_perform_ne {i j : ι} (h : j ≠ i) (c : C) (o : I.Op)
    (k : I.Res o → Prog I ε α) : (s.perform M i c o k).threads j = s.threads j :=
  Function.update_of_ne h ..

/-- The invariant rule: what every performed operation preserves holds after every schedule. -/
theorem run_inv {J : Pool I ε α W ι → Prop} {P : Pool I ε α W ι → ι × C → Prop}
    (hstep : ∀ s i c o k, J s → P s (i, c) → s.threads i = .call o k → s.Ready waits o →
      J (s.perform M i c o k))
    {ms : List (ι × C)} (h : J s) (hms : Meets M waits P ms s) : J (run M waits ms s) := by
  induction ms generalizing s with
  | nil => exact h
  | cons m ms ih =>
    refine ih ?_ hms.2
    obtain ⟨i, c⟩ := m
    unfold step
    cases hthread : s.threads i with
    | ret a => exact h
    | throw e => exact h
    | call o k =>
      show J (if s.Ready waits o then s.perform M i c o k else s)
      split
      · exact hstep s i c o k h hms.1 hthread ‹_›
      · exact h

/-- Whether a schedule meets a condition that can be decided is decided along the schedule. -/
instance instDecidableMeets {P : Pool I ε α W ι → ι × C → Prop} [∀ s m, Decidable (P s m)] :
    (ms : List (ι × C)) → (s : Pool I ε α W ι) → Decidable (Meets M waits P ms s)
  | [], _ => isTrue trivial
  | m :: ms, s =>
    have : Decidable (Meets M waits P ms (step M waits s m)) := instDecidableMeets ms _
    inferInstanceAs (Decidable (P s m ∧ Meets M waits P ms (step M waits s m)))

/-- A condition that every move meets in every state is met throughout the schedule. -/
theorem meets_of_forall {P : Pool I ε α W ι → ι × C → Prop} {ms : List (ι × C)}
    (h : ∀ m ∈ ms, ∀ s, P s m) (s : Pool I ε α W ι) : Meets M waits P ms s := by
  induction ms generalizing s with
  | nil => trivial
  | cons m ms ih =>
    exact ⟨h m List.mem_cons_self s, ih (fun m' hm' => h m' (List.mem_cons_of_mem m hm')) _⟩

/-- The rule for an exact condition. Steps that meet `P` keep the invariant `J`, which gives the
property `E`, and a step that does not meet it ends without `E`. Then `E` holds throughout the
schedule exactly when every step meets `P`. -/
theorem meets_iff {J E : Pool I ε α W ι → Prop} {P : Pool I ε α W ι → ι × C → Prop}
    (hE : ∀ s, J s → E s) (hstep : ∀ s m, J s → P s m → J (step M waits s m))
    (hbad : ∀ s m, J s → ¬ P s m → ¬ E (step M waits s m)) (h : J s) (ms : List (ι × C)) :
    (∀ ms', ms' <+: ms → E (run M waits ms' s)) ↔ Meets M waits P ms s := by
  induction ms generalizing s with
  | nil =>
    refine ⟨fun _ => trivial, fun _ ms' hms' => ?_⟩
    rw [List.prefix_nil.mp hms']
    exact hE s h
  | cons m ms ih =>
    constructor
    · intro hall
      have hm : P s m := not_not.mp fun hm =>
        hbad s m h hm (hall [m] (List.cons_prefix_cons.mpr ⟨rfl, List.nil_prefix⟩))
      refine ⟨hm, (ih (hstep s m h hm)).mp fun ms' hms' => ?_⟩
      exact hall (m :: ms') (List.cons_prefix_cons.mpr ⟨rfl, hms'⟩)
    · rintro ⟨hm, hms⟩ ms' hms'
      cases ms' with
      | nil => exact hE s h
      | cons m' ms' =>
        obtain ⟨rfl, hrest⟩ := List.cons_prefix_cons.mp hms'
        exact (ih (hstep s m' h hm)).mpr hms ms' hrest

/-- When the thread `i` goes on from the protocol state `t`, every thread follows the protocol
from its own state. -/
theorem follows_perform {P : Protocol I} {Q : P.State → Except ε α → Prop} {tok : ι → P.State}
    (h : ∀ j, P.Follows (tok j) (s.threads j) Q) {i : ι} {c : C} {o : I.Op}
    {k : I.Res o → Prog I ε α} {t : P.State} (hk : P.Follows t (k ((M i).exec s.world o c).1) Q) :
    ∀ j, P.Follows (Function.update tok i t j) ((s.perform M i c o k).threads j) Q := by
  intro j
  by_cases hj : j = i
  · subst hj
    rw [Function.update_self, threads_perform_self]
    exact hk
  · rw [Function.update_of_ne hj, threads_perform_ne hj]
    exact h j

/-- A thread performs only the operations of its program. -/
theorem run_allOps {ok : I.Op → Prop} {i : ι} (ms : List (ι × C)) (h : AllOps ok (s.threads i))
    (hlog : ∀ e ∈ s.log, e.1 = i → ok e.2) :
    ∀ e ∈ (run M waits ms s).log, e.1 = i → ok e.2 := by
  refine (run_inv (M := M) (P := fun _ _ => True)
    (J := fun s => AllOps ok (s.threads i) ∧ ∀ e ∈ s.log, e.1 = i → ok e.2)
    ?_ ⟨h, hlog⟩ (meets_of_forall (fun _ _ _ => trivial) s)).2
  rintro s j c o k ⟨hops, hdone⟩ - hj -
  by_cases hij : j = i
  · subst hij
    rw [hj] at hops
    refine ⟨by rw [threads_perform_self]; exact hops.2 _, fun e he hei => ?_⟩
    rcases List.mem_cons.mp he with rfl | he
    · exact hops.1
    · exact hdone e he hei
  · refine ⟨by rw [threads_perform_ne (Ne.symm hij)]; exact hops, fun e he hei => ?_⟩
    rcases List.mem_cons.mp he with rfl | he
    · exact absurd hei hij
    · exact hdone e he hei

/-- What every operation the threads may perform preserves holds of the world. -/
theorem run_world {ok : I.Op → Prop} {J : W → Prop} (ms : List (ι × C))
    (hexec : ∀ i w o c, ok o → J w → J ((M i).exec w o c).2)
    (h : ∀ i, AllOps ok (s.threads i)) (hw : J s.world) : J (run M waits ms s).world := by
  refine (run_inv (M := M) (P := fun _ _ => True)
    (J := fun s => (∀ i, AllOps ok (s.threads i)) ∧ J s.world)
    ?_ ⟨h, hw⟩ (meets_of_forall (fun _ _ _ => trivial) s)).2
  rintro s i c o k ⟨hops, hw⟩ - hi -
  have hthread := hops i
  rw [hi] at hthread
  refine ⟨fun j => ?_, hexec i s.world o c hthread.1 hw⟩
  by_cases hj : j = i
  · subst hj
    rw [threads_perform_self]
    exact hthread.2 _
  · rw [threads_perform_ne hj]
    exact hops j

/-- A thread that has ended stays so when another thread performs an operation. -/
theorem done_perform {i j : ι} {c : C} {o : I.Op} {k : I.Res o → Prog I ε α}
    (hi : s.threads i = .call o k) (hj : (s.threads j).Done) :
    ((s.perform M i c o k).threads j).Done := by
  have hne : j ≠ i := by
    rintro rfl
    rw [hi] at hj
    exact hj
  rw [threads_perform_ne hne]
  exact hj

end Pool

end Effects
