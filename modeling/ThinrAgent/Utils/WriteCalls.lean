import ThinrAgent.Utils.AtomicFile

/-!
# `ThinrAgent.Utils.WriteCalls`: `write_atomic`, call by call

`writeAtomic` takes the loop of `write_all` for one operation. Here every system call of
`write_all` and `write_atomic` is a step, with the loop as it is in the source: a `write` may put
any number of the remaining bytes into the file, or be interrupted. A content is a list of bytes,
and `enc` gives the content of the model's files for it.
-/

set_option autoImplicit false

namespace ThinrAgent

/-- What a system call returns. A `write` returns the number of bytes it has written. -/
inductive SysReturn where
  | ok
  | wrote (n : Nat)
  | eintr
  | error
  deriving DecidableEq, Repr

/-- The call of `write_atomic` that comes next, with what the code carries to it. -/
inductive WriteStage where
  | opening
  | writing (off : Nat)
  | syncing
  | closing (ok : Bool)
  | removing
  | moving
  | syncingDir
  | done (result : Bool)
  deriving DecidableEq, Repr

/-- The arguments of a call of `write_atomic`, in the process `pid`. -/
structure WriteCall where
  path : Path
  pid : Nat
  content : List UInt8

namespace WriteCall

/-- The temporary file of the call, named by the path and the process. -/
def tmp (c : WriteCall) : Path := tempPath c.path c.pid

/-- The head of the loop of `write_all`: the next `write` while bytes are left, and the `fsync`
behind the last one. -/
def loop (c : WriteCall) (off : Nat) : WriteStage :=
  if off < c.content.length then .writing off else .syncing

/-- A call of `write_atomic` on its way. `written` are the bytes that the calls of `write` have put
into the temporary file, in their order. -/
structure State (β : Type) where
  stage : WriteStage := .opening
  written : List UInt8 := []
  world : World β

variable {β : Type} (c : WriteCall) (enc : List UInt8 → Content β)

/-- One system call of `write_atomic` and its answer: a short write continues behind the part that
was taken, an interrupted one is repeated, and any other failure leads to the clean-up. -/
def step (s : State β) (r : SysReturn) : State β :=
  match s.stage, r with
  | .opening, .ok =>
    { stage := c.loop 0, written := [], world := s.world.setFile c.tmp (some (enc [])) }
  | .opening, _ => { s with stage := .done false }
  | .writing off, .wrote n =>
    let written := s.written ++ (c.content.drop off).take n
    { stage := c.loop (off + n), written
      world := s.world.setFile c.tmp (some (enc written)) }
  | .writing _, .eintr => s
  | .writing _, _ => { s with stage := .closing false }
  | .syncing, .ok => { s with stage := .closing true, world := s.world.syncFile c.tmp }
  | .syncing, _ => { s with stage := .closing false }
  | .closing true, .ok => { s with stage := .moving }
  | .closing _, _ => { s with stage := .removing }
  | .removing, .ok =>
    { s with
      stage := .done false
      world := if (s.world.files c.tmp).isSome then s.world.unlink c.tmp else s.world }
  | .removing, _ => { s with stage := .done false }
  | .moving, .ok => { s with stage := .syncingDir, world := s.world.rename c.tmp c.path }
  | .moving, _ => { s with stage := .removing }
  | .syncingDir, .ok =>
    { s with stage := .done true, world := s.world.syncDir (parentDir c.path) }
  | .syncingDir, _ => { s with stage := .done true }
  | .done _, _ => s

/-- What the call of a stage may return: a `write` at least one byte and no more than it was given,
or a failure. The removal of the temporary file does not fail. -/
def Returns : WriteStage → SysReturn → Prop
  | .writing off, .wrote n => 1 ≤ n ∧ off + n ≤ c.content.length
  | .writing _, .ok => False
  | .writing _, _ => True
  | .removing, r => r = .ok
  | .done _, _ => True
  | _, .wrote _ => False
  | _, _ => True

/-- The call after some returns, one after another from the left. -/
def after (s : State β) (rs : List SysReturn) : State β := rs.foldl (c.step enc) s

/-- Every return is one that the call it ends may have. -/
def Allows : State β → List SysReturn → Prop
  | _, [] => True
  | s, r :: rs => c.Returns s.stage r ∧ Allows (c.step enc s r) rs

end WriteCall

end ThinrAgent
