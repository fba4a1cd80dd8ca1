import ThinrAgent.System.Calls

/-!
# `ThinrAgent.System.Processes`: several processes on one disk

`Processes` is the state of several processes of the agent on one device. They share the
disk, and each has its own memory: what `Process` lists, and the flag `in_progress`. A
process sees a `World`, which is the disk with its own memory (`Processes.view`), and
`processMachine` performs its operations there. So the operation of a process is the one
that it would perform alone (`view_exec_self`).

One thing in the memory of a process is changed by the others. The kernel keeps the link to
the executable up to date, also when another process renames, replaces or removes that
file. Processes that run from one executable go on doing so (`exe_exec`).

`passed` is a ghost: the process has looked for a file and found none. No operation reads
it.
-/

set_option autoImplicit false

namespace ThinrAgent

open Effects

/-- The state of the processes `ι` of one device: the disk that they share, and the memory of each
of them. -/
structure Processes (β ι : Type) where
  entry : Path → Entry β
  older : Path → List (Entry β)
  renamed : List (Path × Path) := []
  proc : ι → Process
  inProgress : ι → Bool
  passed : ι → Bool

/-- The answer of a look for a file that is not there. A look that fails has another answer, which
throws. -/
def SysOp.findsNone {β : Type} : (o : SysOp β) → o.Res → Bool
  | .exists _, some false => true
  | _, _ => false

/-- The operation changes nothing on the disk: it looks for a file, or it takes or gives back the
guard of the process. -/
inductive SysOp.KeepsDisk {β : Type} : SysOp β → Prop where
  | acquire : KeepsDisk .acquireInProgress
  | look (p : Path) : KeepsDisk (.exists p)
  | release : KeepsDisk .releaseInProgress

namespace Processes

variable {β ι : Type}

/-- What the process `i` sees: the disk, and its own memory. It does not see the memory of the
others. -/
def view (s : Processes β ι) (i : ι) : World β where
  entry := s.entry
  older := s.older
  proc := s.proc i
  inProgress := s.inProgress i
  renamed := s.renamed

variable [DecidableEq ι]

/-- An operation of the process `i`. In the memory of another process it can change the link to the
executable, and nothing else. -/
def exec (host : Host β) (i : ι) (s : Processes β ι) (o : SysOp β) (c : Choice β) :
    o.Res × Processes β ι :=
  let r := ThinrAgent.exec host (s.view i) o c
  (r.1,
    { entry := r.2.entry
      older := r.2.older
      renamed := r.2.renamed
      proc := fun j => if j = i then r.2.proc else
        { s.proc j with exe := (ThinrAgent.exec host (s.view j) o c).2.proc.exe }
      inProgress := Function.update s.inProgress i r.2.inProgress
      passed := Function.update s.passed i (s.passed i || o.findsNone r.1) })

end Processes

/-- The machine of the process `i`. The machines of the others act on the same state. -/
def processMachine {β ι : Type} [DecidableEq ι] (host : Host β) (i : ι) :
    Machine (sysInterface β) (Processes β ι) (Choice β) where
  exec := Processes.exec host i

namespace Processes

variable {β ι : Type} [DecidableEq ι] {host : Host β} {i j : ι} {s : Processes β ι} {o : SysOp β}
  {c : Choice β}

/-- A process sees its own operation as if it were alone on the device. -/
@[simp] theorem view_exec_self :
    (exec host i s o c).2.view i = (ThinrAgent.exec host (s.view i) o c).2 := by
  simp [exec, view]

/-- The link to the executable after an operation depends on the disk and on the link alone. The
rest of the memory plays no part. -/
theorem exe_congr {w w' : World β} (hentry : w.entry = w'.entry)
    (hexe : w.proc.exe = w'.proc.exe) :
    (ThinrAgent.exec host w o c).2.proc.exe = (ThinrAgent.exec host w' o c).2.proc.exe := by
  have hfiles : w.files = w'.files := by
    funext p
    rw [World.files_eq, World.files_eq, hentry]
  cases o with
  | remove p =>
    simp only [ThinrAgent.exec, hfiles]
    split
    · exact hexe
    · split
      · exact congrArg (unlinkExe p) hexe
      · exact hexe
  | rename src dst =>
    simp only [ThinrAgent.exec, hfiles]
    split
    · exact hexe
    · split
      · exact hexe
      · unfold World.rename
        split
        · exact hexe
        · exact congrArg (renameExe src dst) hexe
  | copyFile src dst =>
    simp only [ThinrAgent.exec, hfiles]
    split <;> exact hexe
  | _ =>
    simp only [ThinrAgent.exec, hfiles]
    (try split) <;> exact hexe

/-- Processes that run from one executable go on doing so, whichever of them performs an
operation. -/
theorem exe_exec {exe : Option Path} (h : ∀ j, (s.proc j).exe = exe) :
    ∀ j, ((exec host i s o c).2.proc j).exe = (ThinrAgent.exec host (s.view i) o c).2.proc.exe := by
  intro j
  simp only [exec]
  split
  · rfl
  · exact exe_congr rfl ((h j).trans (h i).symm)

/-- An operation that keeps the disk changes only the memory of the process itself. The others see
nothing of it. -/
theorem view_exec_of_keepsDisk (h : o.KeepsDisk) (hj : j ≠ i) :
    (exec host i s o c).2.view j = s.view j := by
  cases h <;> simp [exec, view, ThinrAgent.exec, hj]

/-- Nor does it change what the kernel knows of any process: no file has moved under a running
executable. -/
theorem proc_exec_of_keepsDisk (h : o.KeepsDisk) : (exec host i s o c).2.proc = s.proc := by
  funext j
  by_cases hj : j = i
  · subst hj
    cases h <;> simp [exec, view, ThinrAgent.exec]
  · exact congrArg World.proc (view_exec_of_keepsDisk h hj)

/-- And every file stays as it is, with what is durable of it. -/
theorem entry_exec_of_keepsDisk (h : o.KeepsDisk) : (exec host i s o c).2.entry = s.entry := by
  cases h <;> rfl

end Processes

end ThinrAgent
