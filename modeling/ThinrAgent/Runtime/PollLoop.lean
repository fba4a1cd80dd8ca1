import ThinrAgent.Effects.Pacing
import ThinrAgent.Runtime.UpdatePoller
import ThinrAgent.Update.PollSchedule

/-!
# `ThinrAgent.Runtime.PollLoop`: the thread of the automatic poll

`poll_loop` of `runtime/update_poller.cpp`, around the cycle of `Runtime.UpdatePoller`. The thread
reads a random number, the two members that other threads write, and the steady clock, in
nanoseconds. A wait ends when its time has come or `stop` was called. The loop has a bound on its
rounds, which every statement about it leaves open.
-/

set_option autoImplicit false

namespace ThinrAgent

open Effects

/-- What the poll thread calls besides the clock. -/
inductive PollOp (β : Type) where
  | host (o : SysOp β)
  /-- `uniform()`. -/
  | uniform
  /-- The loads of `remote_policy_` and `connected_`. -/
  | members

/-- A random number is between zero and one. The members are the override and the state of the
connection. -/
def PollOp.Res {β : Type} : PollOp β → Type
  | host o => o.Res
  | uniform => FloatValue
  | members => Int32 × Bool

/-- The operations of the poll thread as an interface. -/
abbrev pollInterface (β : Type) : Interface where
  Op := PollOp β
  Res := PollOp.Res

/-- The answer of the environment to an operation of the poll thread. -/
structure PollChoice (β : Type) where
  answer : Choice β
  fraction : FloatValue
  remotePolicy : Int32
  connected : Bool

/-- What the operations do. The random number and the members are part of the answer, as other
threads write them. -/
def pollMachine {β : Type} (host : Host β) :
    Machine (pollInterface β) (World β) (PollChoice β) where
  exec w
    | .host o, c => exec host w o c.answer
    | .uniform, c => (c.fraction, w)
    | .members, c => ((c.remotePolicy, c.connected), w)

/-- A program of the poll thread without the clock, and with it. -/
abbrev CycleM (β α : Type) := Prog (pollInterface β) Exc α
abbrev PollM (β α : Type) := Prog (pollInterface β).timed Exc α

section Loop

variable {β : Type}

/-- A program of the host in the thread of the poll. -/
def onHost {α : Type} (p : SysM β α) : CycleM β α :=
  p.through (H := pollInterface β) .host fun _ r => r

/-- Read the two members that other threads write, each once in a cycle. -/
def members : CycleM β (Int32 × Bool) := .call (I := pollInterface β) PollOp.members .ret

/-- Draw a random number. The environment gives any value, and the delays clamp it to the unit
interval. -/
def uniform : PollM β FloatValue :=
  (Prog.call (I := pollInterface β) PollOp.uniform .ret : CycleM β FloatValue).timed

namespace UpdatePoller

variable (p : UpdatePoller) (host : Host β) (build : Build) (cast : Json.FloatCast)
  (f : Fractions) (user : User)

/-- `run_cycle`, with the new value of `last_interval_h_`. The members that other threads set are
read between the configuration and the requests. -/
def pollCycle : CycleM β (CycleResult × Int32) := do
  let settings ← onHost (readLocal user p.configPath)
  let (remotePolicy, connected) ← members
  let result ← onHost ({ p with remotePolicy, connected }.runLocal host build cast f settings)
  return (result, settings.checkIntervalH)

/-- A number of milliseconds on the steady clock. -/
def milliseconds (ms : Nat) : Nat := ms * 1000000

/-- The rounds of `poll_loop`, from the wait for `next` on: a stop ends them, a deferred cycle is
tried again soon, and every other cycle is followed by the normal delay. -/
def pollRounds : Nat → Nat → PollM β Unit
  | 0, _ => return ()
  | rounds + 1, next => do
    if ← waitUntil next then return ()
    match ← (p.pollCycle host build cast f user).timed with
    | (.restarting, _) => return ()
    | (.deferred, _) =>
      pollRounds rounds ((← now) + milliseconds (millis (.ofNat DEFERRED_RETRY_DELAY_S)))
    | (.normal, lastIntervalH) =>
      let delayS := normalPollDelayS lastIntervalH (← uniform)
      pollRounds rounds ((← now) + milliseconds (millis delayS))

/-- `poll_loop` with a bound on the rounds: the first round is due after a random part of the
initial delay, counted from the moment at which the thread starts. -/
def pollLoop (rounds : Nat) : PollM β Unit := do
  let start ← now
  let delayS := firstPollDelayS (← uniform)
  p.pollRounds host build cast f user rounds (start + milliseconds (millis delayS))

end UpdatePoller

end Loop

end ThinrAgent
