import ThinrAgent.Runtime.ClientStateDispatcher

/-!
# `ThinrAgent.Runtime.Subscriptions`: the dispatcher in the hands of one thread

The functions of `runtime/client_state_dispatcher.hpp` as one thread calls them, each as a whole. A
variable of type `subscription` is an element of `η`. Its destructor is a `reset`, and a variable
that does not exist yet is one without an owner.

A thread that interleaves with no other takes the steps of `ClientStateDispatcher` in the order of
`SubscriptionOp.actions`. `DispatcherRun.runActions_of_step` says so.
-/

set_option autoImplicit false

namespace ThinrAgent

/-- A call of an observer: which one, with which state and reason, and whether it threw. -/
structure ObserverCall (ω : Type) where
  obs : ω
  state : ClientState
  reason : String
  threw : Bool

/-- What the thread does with the dispatcher and its variables. -/
inductive SubscriptionOp (η ω : Type) where
  /-- `subscription h = dispatcher.subscribe(obs)`. -/
  | subscribe (h : η) (obs : ω)
  /-- `subscription h(std::move(other))`. -/
  | moveConstruct (h other : η)
  /-- `h = std::move(other)`. -/
  | moveAssign (h other : η)
  | reset (h : η)
  | destroy (h : η)
  | dispatch (state : ClientState) (reason : String)

/-- The dispatcher of one thread, and the calls of observers so far. -/
structure DispatcherRun (η ω : Type) where
  dispatcher : ClientStateDispatcher Unit η ω := {}
  calls : List (ObserverCall ω) := []

namespace ClientStateDispatcher

section Operations
variable {η ω : Type} [DecidableEq η]

/-- A new observer is registered behind the others under the next identifier, and the variable owns
it. -/
def subscribe (d : ClientStateDispatcher Unit η ω) (h : η) (obs : ω) :
    ClientStateDispatcher Unit η ω :=
  { d.setHandle h { owner := true, id := d.nextId, number := d.count } with
    observers := d.observers ++ [{ id := d.nextId, obs, number := d.count }]
    nextId := d.nextId + 1
    count := d.count + 1 }

/-- The first observer with the identifier is removed, if there is one. -/
def unsubscribe (d : ClientStateDispatcher Unit η ω) (id : UInt64) :
    ClientStateDispatcher Unit η ω :=
  { d with observers := d.observers.eraseP fun e => e.id = id }

/-- A variable that owns an observer unsubscribes it, once. A second `reset` does nothing. -/
def reset (d : ClientStateDispatcher Unit η ω) (h : η) : ClientStateDispatcher Unit η ω :=
  let sub := d.handles h
  if sub.owner then (d.unsubscribe sub.id).setHandle h { sub with owner := false } else d

/-- The `reset` of a variable that owns an observer. -/
theorem reset_of_owner {d : ClientStateDispatcher Unit η ω} {h : η}
    (howner : (d.handles h).owner = true) :
    d.reset h = (d.unsubscribe (d.handles h).id).setHandle h
      { d.handles h with owner := false } := by
  simp only [reset, howner, if_true]

/-- The `reset` of a variable that owns none does nothing. -/
theorem reset_of_free {d : ClientStateDispatcher Unit η ω} {h : η}
    (howner : (d.handles h).owner = false) : d.reset h = d := by
  simp only [reset, howner, Bool.false_eq_true, if_false]

/-- `subscription(subscription&& other)`: the new variable takes over what `other` owns, and `other`
owns nothing afterwards. -/
def moveConstruct (d : ClientStateDispatcher Unit η ω) (h other : η) :
    ClientStateDispatcher Unit η ω :=
  (d.setHandle h (d.handles other)).setHandle other { d.handles other with owner := false }

/-- `operator=(subscription&& other)`: what the variable owned is reset before it takes over from
`other`. An assignment of a variable to itself does nothing. -/
def moveAssign (d : ClientStateDispatcher Unit η ω) (h other : η) :
    ClientStateDispatcher Unit η ω :=
  if h ≠ other then (d.reset h).moveConstruct h other else d

end Operations

section Dispatch
variable {ω : Type}

/-- The call of an observer. `throws n` says whether the `n`-th call of the run throws. -/
def callObserver (throws : Nat → Bool) (state : ClientState) (reason : String)
    (e : ObserverEntry ω) : ExceptT Unit (StateM (List (ObserverCall ω))) Unit := do
  let calls ← get
  let threw := throws calls.length
  set (calls ++ [{ obs := e.obs, state, reason, threw }])
  if threw then throw ()

/-- The loop of `dispatch` over the snapshot. An observer that throws does not keep the others from
being called. -/
def callAll (throws : Nat → Bool) (state : ClientState) (reason : String) :
    List (ObserverEntry ω) → ExceptT Unit (StateM (List (ObserverCall ω))) Unit
  | [] => pure ()
  | e :: rest => do
    tryCatch (callObserver throws state reason e) fun _ => pure ()
    callAll throws state reason rest

/-- A call that throws is made, and the exception is caught. -/
theorem run_callObserver (throws : Nat → Bool) (state : ClientState) (reason : String)
    (e : ObserverEntry ω) (calls : List (ObserverCall ω)) :
    (tryCatch (callObserver throws state reason e) fun _ => pure ()).run.run calls =
      (.ok (), calls ++ [{ obs := e.obs, state, reason, threw := throws calls.length }]) := by
  have hcall : (callObserver throws state reason e).run.run calls =
      (if throws calls.length then .error () else .ok (),
        calls ++ [{ obs := e.obs, state, reason, threw := throws calls.length }]) := by
    simp only [callObserver, ExceptT.run_bind, StateT.run_bind]
    show ((if throws calls.length then throw () else pure () :
      ExceptT Unit (StateM (List (ObserverCall ω))) Unit)).run.run _ = _
    split <;> rfl
  rw [ExceptT.run_tryCatch, StateT.run_bind, hcall]
  split <;> rfl

/-- The loop calls every observer once and in order, whether they throw or not. -/
theorem run_callAll (throws : Nat → Bool) (state : ClientState) (reason : String)
    (es : List (ObserverEntry ω)) (calls : List (ObserverCall ω)) :
    ∃ made : List (ObserverCall ω),
      (callAll throws state reason es).run.run calls = (.ok (), calls ++ made) ∧
        made.map (fun c => (c.obs, c.state, c.reason)) =
          es.map fun e => (e.obs, state, reason) := by
  induction es generalizing calls with
  | nil => exact ⟨[], by rw [List.append_nil]; rfl, rfl⟩
  | cons e rest ih =>
    let call : ObserverCall ω := { obs := e.obs, state, reason, threw := throws calls.length }
    obtain ⟨made, hrun, hmade⟩ := ih (calls ++ [call])
    refine ⟨call :: made, ?_, ?_⟩
    · rw [callAll, ExceptT.run_bind, StateT.run_bind, run_callObserver]
      rw [show calls ++ call :: made = calls ++ [call] ++ made from List.append_cons .., ← hrun]
      rfl
    · rw [List.map_cons, List.map_cons, hmade]

end Dispatch

end ClientStateDispatcher

namespace DispatcherRun

variable {η ω : Type} [DecidableEq η]

/-- One operation, or `none` where it would construct a variable over one that has an owner. -/
def step (throws : Nat → Bool) (s : DispatcherRun η ω) :
    SubscriptionOp η ω → Option (DispatcherRun η ω)
  | .subscribe h obs =>
    if (s.dispatcher.handles h).owner then none
    else some { s with dispatcher := s.dispatcher.subscribe h obs }
  | .moveConstruct h other =>
    if h = other ∨ (s.dispatcher.handles h).owner then none
    else some { s with dispatcher := s.dispatcher.moveConstruct h other }
  | .moveAssign h other => some { s with dispatcher := s.dispatcher.moveAssign h other }
  | .reset h => some { s with dispatcher := s.dispatcher.reset h }
  | .destroy h => some { s with dispatcher := s.dispatcher.reset h }
  | .dispatch state reason =>
    -- The calls are those up to an exception that leaves the loop.
    some { dispatcher := { s.dispatcher with last := state }
           calls := ((ClientStateDispatcher.callAll throws state reason
             s.dispatcher.observers).run.run s.calls).2 }

/-- A list of operations, as long as each of them is possible. -/
def run (throws : Nat → Bool) (s : DispatcherRun η ω) :
    List (SubscriptionOp η ω) → Option (DispatcherRun η ω)
  | [] => some s
  | op :: ops => (s.step throws op).bind fun s' => s'.run throws ops

end DispatcherRun

section Actions
variable {η ω : Type} [DecidableEq η]

/-- The steps of a `reset` in the dispatcher of all threads: none for a variable that owns
nothing. -/
def resetActions (d : ClientStateDispatcher Unit η ω) (h : η) : List (DispatcherAction Unit η ω) :=
  if (d.handles h).owner then [.unsubscribe h, .endReset h] else []

/-- The steps of the loop of a dispatch. -/
def callActions (es : List (ObserverEntry ω)) : List (DispatcherAction Unit η ω) :=
  es.flatMap fun _ => [.call (), .endCall ()]

/-- The steps that an operation takes in the dispatcher of interleaved threads. -/
def SubscriptionOp.actions (d : ClientStateDispatcher Unit η ω) :
    SubscriptionOp η ω → List (DispatcherAction Unit η ω)
  | .subscribe h obs => [.subscribe h obs]
  | .moveConstruct h other => [.move h other]
  | .moveAssign h other => if h = other then [] else resetActions d h ++ [.move h other]
  | .reset h => resetActions d h
  | .destroy h => resetActions d h
  | .dispatch state reason =>
    [.dispatch () state reason, .snapshot ()] ++ callActions d.observers ++ [.finish ()]

/-- No operation is in progress: no thread is in `dispatch`, the callback is attached, and no
variable is being reset. -/
structure ClientStateDispatcher.Quiet (d : ClientStateDispatcher Unit η ω) : Prop where
  idle : d.threads = fun _ => .idle
  attached : d.attached = true
  reset : ∀ h, (d.handles h).resetting = false

namespace ClientStateDispatcher

variable {d d' d'' : ClientStateDispatcher Unit η ω}

omit [DecidableEq η] in
/-- At the beginning no thread is inside the dispatcher. -/
theorem quiet_init : ({} : ClientStateDispatcher Unit η ω).Quiet := ⟨rfl, rfl, fun _ => rfl⟩

/-- Two runs of actions after each other are one. -/
theorem runActions_append {as bs : List (DispatcherAction Unit η ω)}
    (hfst : d.runActions as = some d') (hsnd : d'.runActions bs = some d'') :
    d.runActions (as ++ bs) = some d'' := by
  induction as generalizing d with
  | nil => cases hfst; exact hsnd
  | cons a as ih =>
    obtain ⟨d₁, hstep, hrest⟩ := Option.bind_eq_some_iff.mp hfst
    exact Option.bind_eq_some_iff.mpr ⟨d₁, hstep, ih hrest⟩

/-- Setting a variable that is not being reset leaves the dispatcher quiet. -/
theorem Quiet.setHandle (hq : d.Quiet) (h : η) {sub : Subscription} (hsub : sub.resetting = false) :
    (d.setHandle h sub).Quiet := by
  refine ⟨hq.idle, hq.attached, fun k => ?_⟩
  show (Function.update d.handles h sub k).resetting = false
  rw [Function.update_apply]
  split
  · exact hsub
  · exact hq.reset k

/-- The actions of a `reset` have its effect, and no thread is inside the dispatcher after them. -/
theorem Quiet.reset_ (hq : d.Quiet) (h : η) :
    d.runActions (resetActions d h) = some (d.reset h) ∧ (d.reset h).Quiet := by
  cases howner : (d.handles h).owner with
  | false =>
    rw [reset_of_free howner, resetActions, howner]
    exact ⟨rfl, hq⟩
  | true =>
    have hready := hq.reset h
    have hq' : (d.unsubscribe (d.handles h).id).Quiet := ⟨hq.idle, hq.attached, hq.reset⟩
    rw [reset_of_owner howner, resetActions, howner]
    refine ⟨?_, hq'.setHandle h hready⟩
    have hunsubscribe : d.step (.unsubscribe h) =
        some ((d.unsubscribe (d.handles h).id).setHandle h
          { d.handles h with resetting := true }) := by
      simp only [step, howner, hready]
      rfl
    show (d.step (.unsubscribe h)).bind _ = _
    rw [hunsubscribe, Option.bind_some]
    simp only [runActions, step, ClientStateDispatcher.setHandle, Function.update_self, if_true,
      Option.bind_some, Function.update_idem, hready]

/-- The action of a move into a new variable has its effect. The variable must not own an observer,
which would be lost. -/
theorem Quiet.moveConstruct (hq : d.Quiet) {h other : η} (hne : h ≠ other)
    (hfree : (d.handles h).owner = false) :
    d.runActions [.move h other] = some (d.moveConstruct h other) ∧
      (d.moveConstruct h other).Quiet := by
  refine ⟨?_, (hq.setHandle h (hq.reset other)).setHandle other (hq.reset other)⟩
  have hguard : ((d.handles h).owner || (d.handles other).resetting) = false := by
    rw [hfree, hq.reset other, Bool.or_false]
  simp only [runActions, step, if_neg hne, hguard]
  rfl

/-- After a `reset` the variable owns nothing, whether it owned a subscription before or not. -/
theorem owner_reset (d : ClientStateDispatcher Unit η ω) (h : η) :
    ((d.reset h).handles h).owner = false := by
  cases howner : (d.handles h).owner with
  | false => rw [reset_of_free howner, howner]
  | true =>
    rw [reset_of_owner howner]
    show (Function.update d.handles h _ h).owner = false
    rw [Function.update_self]

/-- The loop of a dispatch runs through: every call of the snapshot can be made, one after
another. -/
theorem runActions_callActions (state : ClientState) (reason : String)
    (es : List (ObserverEntry ω)) :
    (d.setThread () (.calling state reason none es)).runActions (callActions es) =
      some (d.setThread () (.calling state reason none [])) := by
  induction es with
  | nil => rfl
  | cons e es ih =>
    have hcall : (d.setThread () (.calling state reason none (e :: es))).step (.call ()) =
        some (d.setThread () (.calling state reason (some e) es)) := by
      simp only [step, setThread, Function.update_self, Function.update_idem]
    have hend : (d.setThread () (.calling state reason (some e) es)).step (.endCall ()) =
        some (d.setThread () (.calling state reason none es)) := by
      simp only [step, setThread, Function.update_self, Function.update_idem]
    show ((d.setThread () _).step (.call ())).bind _ = _
    rw [hcall, Option.bind_some]
    show ((d.setThread () _).step (.endCall ())).bind _ = _
    rw [hend, Option.bind_some]
    exact ih

/-- The actions of a dispatch change the last state only, when no other thread comes in between. -/
theorem Quiet.dispatch (hq : d.Quiet) (state : ClientState) (reason : String) :
    d.runActions (SubscriptionOp.actions d (.dispatch state reason)) =
      some { d with last := state } ∧
        ({ d with last := state } : ClientStateDispatcher Unit η ω).Quiet := by
  have hq' : ({ d with last := state } : ClientStateDispatcher Unit η ω).Quiet :=
    ⟨hq.idle, hq.attached, hq.reset⟩
  refine ⟨?_, hq'⟩
  generalize hd' : ({ d with last := state } : ClientStateDispatcher Unit η ω) = d' at hq' ⊢
  have hobservers : d'.observers = d.observers := by rw [← hd']
  -- The thread enters, takes the snapshot, calls every observer of it, and leaves.
  have hstart : d.runActions [.dispatch () state reason, .snapshot ()] =
      some (d'.setThread () (.calling state reason none d'.observers)) := by
    have hdispatch : d.step (.dispatch () state reason) =
        some (d'.setThread () (.entered state reason)) := by
      have hidle : d.threads () = .idle := by rw [hq.idle]
      simp only [step, hidle]
      rw [if_pos hq.attached, ← hd']
      rfl
    show (d.step (.dispatch () state reason)).bind _ = _
    rw [hdispatch, Option.bind_some]
    simp only [runActions, step, setThread, Function.update_self, Function.update_idem,
      Option.bind_some]
  have hfinish : (d'.setThread () (.calling state reason none [])).runActions [.finish ()] =
      some d' := by
    have hidle : Function.update d'.threads () .idle = d'.threads := by
      rw [hq'.idle]
      exact Function.update_eq_self () _
    simp only [runActions, step, setThread, Function.update_self, Function.update_idem,
      Option.bind_some, hidle]
  rw [SubscriptionOp.actions, ← hobservers]
  exact runActions_append (runActions_append hstart (runActions_callActions state reason _)) hfinish

end ClientStateDispatcher

/-- An operation of one thread is a sequence of steps of the dispatcher of interleaved threads. -/
theorem DispatcherRun.runActions_of_step {throws : Nat → Bool} {s s' : DispatcherRun η ω}
    {op : SubscriptionOp η ω} (h : s.step throws op = some s') (hq : s.dispatcher.Quiet) :
    s.dispatcher.runActions (op.actions s.dispatcher) = some s'.dispatcher ∧
      s'.dispatcher.Quiet := by
  cases op with
  | subscribe k obs =>
    simp only [step] at h
    split at h
    · cases h
    · next hfree =>
      cases h
      let sub : Subscription :=
        { owner := true, id := s.dispatcher.nextId, number := s.dispatcher.count }
      have hq' := hq.setHandle k (show sub.resetting = false from rfl)
      refine ⟨?_, hq'.idle, hq'.attached, hq'.reset⟩
      simp only [SubscriptionOp.actions, ClientStateDispatcher.runActions,
        ClientStateDispatcher.step, if_neg hfree, Option.bind_some]
      rfl
  | moveConstruct k other =>
    simp only [step] at h
    split at h
    · cases h
    · next hguard =>
      cases h
      rw [not_or] at hguard
      exact hq.moveConstruct hguard.1 (by simpa using hguard.2)
  | moveAssign k other =>
    cases h
    simp only [SubscriptionOp.actions, ClientStateDispatcher.moveAssign]
    -- An assignment to itself does nothing. Any other one is a `reset` and a move.
    by_cases heq : k = other
    · rw [if_pos heq, if_neg (not_not.mpr heq)]
      exact ⟨rfl, hq⟩
    · rw [if_neg heq, if_pos heq]
      obtain ⟨hreset, hq'⟩ := hq.reset_ k
      obtain ⟨hmove, hq''⟩ := hq'.moveConstruct heq (s.dispatcher.owner_reset k)
      exact ⟨ClientStateDispatcher.runActions_append hreset hmove, hq''⟩
  | reset k => cases h; exact hq.reset_ k
  | destroy k => cases h; exact hq.reset_ k
  | dispatch state reason => cases h; exact hq.dispatch state reason

end Actions

end ThinrAgent
