import Mathlib.Logic.Function.Basic
import Mathlib.Logic.Relation
import ThinrAgent.Runtime.UpdateWatchdog

/-!
# `ThinrAgent.Runtime.ClientStateDispatcher`: the observers of the client state

The dispatcher of `runtime/client_state_dispatcher.hpp` and its subscriptions, as the steps of
threads that interleave. A section under the lock is one step: `subscribe`, the snapshot of a
dispatch, and `unsubscribe`. The calls of a dispatch are outside the lock, and a call begins and
ends in steps of its own. `reset` has two steps, the unsubscription and its return. The destructor
of a subscription and an assignment to one with an owner are a `reset` first.

`number` counts the subscriptions. The source does not have it. It tells apart what an identifier
of 64 bits does not once it repeats.
-/

set_option autoImplicit false

namespace ThinrAgent

/-- `entry`: an observer of type `ω` with its identifier. -/
structure ObserverEntry (ω : Type) where
  id : UInt64
  obs : ω
  number : Nat

/-- `subscription`. `owner` says that `owner_` is set, and `resetting` that a `reset` has
unsubscribed and has not returned. -/
structure Subscription where
  owner : Bool := false
  id : UInt64 := 0
  number : Nat := 0
  resetting : Bool := false

/-- Where a thread is in `dispatch`: outside, at the lock of the list of observers, or at the calls
of the snapshot that it has taken. -/
inductive DispatchControl (ω : Type) where
  | idle
  /-- It has stored the state, and not taken the lock. -/
  | entered (state : ClientState) (reason : String)
  /-- It runs one observer of the snapshot, or none, and has `rest` to call. -/
  | calling (state : ClientState) (reason : String) (running : Option (ObserverEntry ω))
    (rest : List (ObserverEntry ω))

/-- The entries of the snapshot that the thread runs or has to call. -/
def DispatchControl.held {ω : Type} : DispatchControl ω → List (ObserverEntry ω)
  | .calling _ _ running rest => running.toList ++ rest
  | _ => []

/-- The entry whose observer the thread runs at this moment, if it runs one. -/
def DispatchControl.running {ω : Type} : DispatchControl ω → Option (ObserverEntry ω)
  | .calling _ _ running _ => running
  | _ => none

/-- The dispatcher with its observers and the last state, the subscriptions `η` that variables hold,
and the threads `τ` that dispatch. -/
structure ClientStateDispatcher (τ η ω : Type) where
  observers : List (ObserverEntry ω) := []
  nextId : UInt64 := 1
  last : ClientState := .other "DISCONNECTED"
  /-- The client has the callback. -/
  attached : Bool := true
  handles : η → Subscription := fun _ => {}
  threads : τ → DispatchControl ω := fun _ => .idle
  count : Nat := 0

/-- The steps of the threads. A dispatch has several, so that another thread may come in between. -/
inductive DispatcherAction (τ η ω : Type) where
  | subscribe (h : η) (obs : ω)
  | move (h other : η)
  | dispatch (t : τ) (state : ClientState) (reason : String)
  | snapshot (t : τ)
  | call (t : τ)
  | endCall (t : τ)
  | finish (t : τ)
  | unsubscribe (h : η)
  | endReset (h : η)
  | destroy

namespace ClientStateDispatcher

variable {τ η ω : Type} [DecidableEq τ] [DecidableEq η]

/-- The variable holds the subscription from now on, and all other variables stay. -/
def setHandle (d : ClientStateDispatcher τ η ω) (h : η) (sub : Subscription) :
    ClientStateDispatcher τ η ω :=
  { d with handles := Function.update d.handles h sub }

/-- The thread is at this point of its dispatch. -/
def setThread (d : ClientStateDispatcher τ η ω) (t : τ) (c : DispatchControl ω) :
    ClientStateDispatcher τ η ω :=
  { d with threads := Function.update d.threads t c }

/-- One step of a thread, or `none` where it cannot be taken. A `reset` takes two of them, and a
dispatch goes from its snapshot to the calls one by one. -/
def step (d : ClientStateDispatcher τ η ω) :
    DispatcherAction τ η ω → Option (ClientStateDispatcher τ η ω)
  | .subscribe h obs =>
    if (d.handles h).owner then none
    else
      some { d.setHandle h { owner := true, id := d.nextId, number := d.count } with
        observers := d.observers ++ [{ id := d.nextId, obs, number := d.count }]
        nextId := d.nextId + 1
        count := d.count + 1 }
  | .move h other =>
    if h = other then some d
    else if (d.handles h).owner || (d.handles other).resetting then none
    else some ((d.setHandle h (d.handles other)).setHandle other
      { d.handles other with owner := false })
  | .dispatch t state reason =>
    match d.threads t with
    | .idle =>
      if d.attached then some { d.setThread t (.entered state reason) with last := state }
      else none
    | _ => none
  | .snapshot t =>
    match d.threads t with
    | .entered state reason => some (d.setThread t (.calling state reason none d.observers))
    | _ => none
  | .call t =>
    match d.threads t with
    | .calling state reason none (e :: rest) =>
      some (d.setThread t (.calling state reason (some e) rest))
    | _ => none
  -- An observer that throws ends like one that returns.
  | .endCall t =>
    match d.threads t with
    | .calling state reason (some _) rest =>
      some (d.setThread t (.calling state reason none rest))
    | _ => none
  | .finish t =>
    match d.threads t with
    | .calling _ _ none [] => some (d.setThread t .idle)
    | _ => none
  | .unsubscribe h =>
    let sub := d.handles h
    if sub.owner && !sub.resetting then
      some { d.setHandle h { sub with resetting := true } with
        observers := d.observers.eraseP fun e => e.id = sub.id }
    else none
  | .endReset h =>
    let sub := d.handles h
    if sub.resetting then some (d.setHandle h { sub with owner := false, resetting := false })
    else none
  | .destroy => some { d with attached := false }

/-- Some action leads from the one state to the other. -/
def Step (d d' : ClientStateDispatcher τ η ω) : Prop := ∃ a, d.step a = some d'

/-- A sequence of actions, which has no result where one of them is not possible. -/
def runActions (d : ClientStateDispatcher τ η ω) :
    List (DispatcherAction τ η ω) → Option (ClientStateDispatcher τ η ω)
  | [] => some d
  | a :: as => (d.step a).bind fun d' => d'.runActions as

/-- A thread runs the observer of the subscription `n`. -/
def Runs (d : ClientStateDispatcher τ η ω) (n : Nat) : Prop :=
  ∃ t, ∃ e, (d.threads t).running = some e ∧ e.number = n

end ClientStateDispatcher

end ThinrAgent
