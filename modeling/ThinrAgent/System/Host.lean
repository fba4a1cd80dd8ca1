import Mathlib.Logic.Function.Basic
import ThinrAgent.Effects.CrashLogic
import ThinrAgent.Std.Path
import ThinrAgent.Update.UpdateMarker

/-!
# `ThinrAgent.System.Host`: the operations the agent performs on its host

`SysOp` lists the operations: the file calls, the download, the clock, the memory the
threads of a process share, and the services the start-up asks. `exec` is what an operation
does to a `World` against one answer of the environment (`Choice`). An operation that can
fail fails on the answer `fail`, and then changes nothing, except that a call that was
filling a file may leave anything in it.

A file holds an image (the bytes of a binary, abstract as `β`), or a text. A text is kept as
the JSON value the parser finds in it. Running an image is a function of its bytes.

`Process` is what belongs to one process. Its `exe` is the answer of
`readlink("/proc/self/exe")`, or nothing where there is no `/proc`. The kernel updates that
link when the file is renamed, and appends ` (deleted)` when it is replaced or removed.
-/

set_option autoImplicit false

namespace ThinrAgent

open Effects

/-- The content of a file: the bytes of a binary, a text the JSON parser accepts, or any
other text. -/
inductive Content (β : Type) where
  | image (b : β)
  | json (j : Json)
  | raw (s : String)

/-- The value `nlohmann::json::parse` finds in a file's text. -/
def Content.parse {β : Type} : Content β → Option Json
  | image _ => none
  | json j => some j
  | raw _ => none

/-- The bytes of a binary, when the file holds one. -/
def Content.image? {β : Type} : Content β → Option β
  | image b => some b
  | _ => none

/-- What a program sees of the disk: the content of each path, or nothing. -/
abbrev Files (β : Type) := Path → Option (Content β)

/-- The errors that a test tells apart, and the rest. -/
inductive Errno where
  | enoent
  | enospc
  | other (code : Nat)
  deriving DecidableEq, Repr

/-- The outcome of running a program to its end, or to its timeout. -/
structure ExecResult where
  exitCode : Int
  timedOut : Bool
  output : String
  deriving DecidableEq, Repr

/-- The outcome of `http::client::download`: an exception, a failure of the transport, or a response
with its status and size. -/
inductive HttpResult where
  | threw
  | networkError
  | response (statusCode : Nat) (bytesTransferred : Nat)
  deriving DecidableEq, Repr

/-- What the service manager says about the agent's service. -/
inductive ServiceStatus where
  | notInstalled
  | installedStopped
  | installedRunning
  | unknown
  deriving DecidableEq, Repr

/-- The exceptions that cross the modelled functions, with their text where a function reads it. -/
inductive Exc where
  | filesystemError
  | typeError
  | parseError
  | outOfRange
  | runtimeError (what : String)
  | invalidArgument (what : String)
  | revertedRestartRequired
  deriving DecidableEq, Repr

/-- The outcome of `http::client::get`. A body is kept as the JSON value in it, if any. -/
inductive HttpGet where
  | error (what : String)
  | response (status : Nat) (body : Option Json)

/-- What the host computes: the SHA-256 digest of some bytes in hex, the outcome of running
an image with `--version`, and the text of an error code. -/
structure Host (β : Type) where
  sha256 : Content β → String
  runVersion : β → ExecResult
  strerror : Errno → String

/-- The functions that resolve a trial, of which exactly one may run. -/
inductive Resolution where
  | confirm
  | rollback
  | report
  deriving DecidableEq, Repr

/-- The operations. `enter` marks the entry of a function that resolves a trial: it does
nothing, and shows in the record of the operations performed. -/
inductive SysOp (β : Type) where
  | exists (p : Path)
  | isRegularFile (p : Path)
  | read (p : Path)
  | remove (p : Path)
  | copyFile (src dst : Path)
  | rename (src dst : Path)
  | addExecPermission (p : Path)
  | createDirectories (p : Path)
  | httpGet (url : String)
  | httpDownload (url : String) (dest : Path)
  | execVersion (p : Path)
  | time
  | activeSessions
  | readlinkExe
  | getpid
  | openTrunc (p : Path) (mode : Nat)
  | writeAll (p : Path) (content : Content β)
  | fsync (p : Path)
  | close (p : Path)
  | fsyncDir (d : Path)
  | acquireInProgress
  | releaseInProgress
  | claimResolution
  | setDeadlineStop
  | waitDeadline
  | joinDeadline
  | enter (r : Resolution)
  | unsubscribe
  | isConnected
  | setProperty (name : String) (payload : Json)
  | raiseSigterm
  | getenv (name : String)
  | serviceStatus
  | isInteractive
  | managementMenu
  | configureClient
  | initExtensions
  | startClient

/-- The type of results of an operation. Where a call can throw, `none` is the throw. -/
def SysOp.Res {β : Type} : SysOp β → Type
  | .exists _ => Option Bool
  | .isRegularFile _ => Option Bool
  | .read _ => Option (Content β)
  | .remove _ => Option Errno
  | .copyFile _ _ => Option Errno
  | .rename _ _ => Option Errno
  | .addExecPermission _ => Option Errno
  | .createDirectories _ => Option Unit
  | .httpGet _ => HttpGet
  | .httpDownload _ _ => HttpResult
  | .execVersion _ => ExecResult
  | .time => Int64
  | .activeSessions => Nat
  | .readlinkExe => Option Path
  | .getpid => Nat
  | .openTrunc _ _ => Bool
  | .writeAll _ _ => Bool
  | .fsync _ => Bool
  | .close _ => Bool
  | .fsyncDir _ => Unit
  | .acquireInProgress => Bool
  | .releaseInProgress => Unit
  | .claimResolution => Bool
  | .setDeadlineStop => Unit
  | .waitDeadline => Bool
  | .joinDeadline => Unit
  | .enter _ => Unit
  | .unsubscribe => Unit
  | .isConnected => Bool
  | .setProperty _ _ => Option Unit
  | .raiseSigterm => Unit
  | .getenv _ => Option String
  | .serviceStatus => Option ServiceStatus
  | .isInteractive => Bool
  | .managementMenu => Option Bool
  | .configureClient => Option Unit
  | .initExtensions => Option Unit
  | .startClient => Option Unit

/-- The interface of the host: its operations, and the type of each one's answer. -/
@[reducible] def sysInterface (β : Type) : Interface := ⟨SysOp β, SysOp.Res⟩

/-- Code of the agent: a program over the host's operations. -/
abbrev SysM (β α : Type) := Prog (sysInterface β) Exc α

/-- One answer of the environment to an operation: success, a failure with what it leaves behind, or
a value that is read. -/
inductive Choice (β : Type) where
  | ok
  | fail (e : Errno) (left : Option (Content β))
  | http (res : HttpResult) (left : Option (Content β))
  | body (res : HttpGet)
  | num (n : Int)
  | text (s : String)

/-- What belongs to one process: its number, the link to its executable, and the members its
watchdog's threads share. -/
structure Process where
  pid : Nat
  exe : Option Path
  resolved : Bool := false
  deadlineStop : Bool := false
  deriving DecidableEq

/-- An entry of a directory: no file, or a file's content with whether `fsync` has made its
data durable. -/
abbrev Entry (β : Type) := Option (Content β × Bool)

/-- The state the operations act on: the current entry of every path, and the older entries
that no `fsync` of the directory has discarded yet. `inProgress` is the flag of
`apply_with_watchdog` in the process. `renamed` is the history of successful renames, the last
one first. No operation reads it. -/
structure World (β : Type) where
  entry : Path → Entry β
  older : Path → List (Entry β)
  proc : Process
  inProgress : Bool := false
  renamed : List (Path × Path) := []

namespace Choice

variable {β : Type}

/-- The error of an answer, if it is one. -/
def error : Choice β → Option Errno
  | fail e _ => some e
  | _ => none

/-- What a failed call leaves in the file it was filling. -/
def left : Choice β → Option (Content β)
  | fail _ l => l
  | http _ l => l
  | _ => none

/-- The number in an answer, for the clock. -/
def number : Choice β → Int
  | num n => n
  | _ => 0

/-- The answer as the outcome of a download. -/
def http? : Choice β → HttpResult
  | http res _ => res
  | _ => .threw

/-- The answer as the response to a request. Any other answer is an error of the request. -/
def httpGet? : Choice β → HttpGet
  | body res => res
  | _ => .error ""

/-- The answer as a text, if it is one. -/
def text? : Choice β → Option String
  | text s => some s
  | _ => none

end Choice

/-- The executable link after the file at `p` is replaced or removed. -/
def unlinkExe (p : Path) (exe : Option Path) : Option Path :=
  if exe = some p then some (p ++ " (deleted)") else exe

/-- The executable link after `rename(src, dst)`: it follows the file, and a file that was
overwritten is shown as deleted. -/
def renameExe (src dst : Path) (exe : Option Path) : Option Path :=
  if exe = some src then some dst else unlinkExe dst exe

namespace World

variable {β : Type}

/-- The entries a power cut may leave at `p`. -/
def disk (w : World β) (p : Path) : List (Entry β) := w.entry p :: w.older p

/-- What a reader finds at `p` now, whether it would survive a power cut or not. -/
def files (w : World β) : Files β := fun p => (w.entry p).map Prod.fst

/-- The binary at `p` now, if the file there is one. -/
def image (w : World β) (p : Path) : Option β := (w.files p).bind Content.image?

/-- The world of a process `proc` where the files `f` are all durable. -/
def ofFiles (f : Files β) (proc : Process) : World β where
  entry p := (f p).map fun c => (c, true)
  older _ := []
  proc := proc

/-- A new current entry at `p`. What stood there joins the entries that a power cut may bring
back. -/
def push (w : World β) (p : Path) (e : Entry β) : World β :=
  { w with
    entry := Function.update w.entry p e
    older := Function.update w.older p (w.disk p) }

/-- Write `v` at `p`: a content that is not durable, or no file. -/
def setFile (w : World β) (p : Path) (v : Option (Content β)) : World β :=
  w.push p (v.map fun c => (c, false))

/-- The removal of a file. The link to the executable is marked when it is the file that is
removed. -/
def unlink (w : World β) (p : Path) : World β :=
  { w.push p none with proc := { w.proc with exe := unlinkExe p w.proc.exe } }

/-- A successful `rename(src, dst)` of an existing file onto another name. -/
def move (w : World β) (src dst : Path) : World β :=
  { (w.push src none).push dst (w.entry src) with
    proc := { w.proc with exe := renameExe src dst w.proc.exe }
    renamed := (src, dst) :: w.renamed }

/-- A successful `rename(src, dst)`: of a file onto its own name it does nothing. -/
def rename (w : World β) (src dst : Path) : World β :=
  if src = dst then w else w.move src dst

/-- `fsync` of the file at `p`: the data of the current entry becomes durable. -/
def syncFile (w : World β) (p : Path) : World β :=
  { w with entry := Function.update w.entry p ((w.entry p).map fun e => (e.1, true)) }

/-- `fsync` of the directory `d`: the current entries of its files replace the older ones. An
empty path cannot be opened. -/
def syncDir (w : World β) (d : Path) : World β :=
  { w with older := fun p =>
      if d ≠ "" ∧ dirName (parentPath p) = dirName d then [] else w.older p }

end World

/-- The status a number of the environment stands for. -/
def serviceStatusOf : Int → ServiceStatus
  | 0 => .notInstalled
  | 1 => .installedStopped
  | 2 => .installedRunning
  | _ => .unknown

/-- The meaning of an operation: its answer and the world after it, by what the environment
decides. -/
def exec {β : Type} (host : Host β) (w : World β) : (o : SysOp β) → Choice β → o.Res × World β
  | .exists p, c => (if c.error.isSome then none else some (w.files p).isSome, w)
  | .isRegularFile p, c => (if c.error.isSome then none else some (w.files p).isSome, w)
  | .read p, c => (if c.error.isSome then none else w.files p, w)
  | .remove p, c =>
    match c.error with
    | some e => (some e, w)
    | none => (none, if (w.files p).isSome then w.unlink p else w)
  | .copyFile src dst, c =>
    match c.error, w.files src with
    | some e, _ => (some e, w.setFile dst c.left)
    | none, none => (some .enoent, w)
    | none, some content => (none, w.setFile dst (some content))
  | .rename src dst, c =>
    match c.error with
    | some e => (some e, w)
    | none =>
      if (w.files src).isNone then (some .enoent, w) else (none, w.rename src dst)
  | .addExecPermission _, c => (c.error, w)
  | .createDirectories _, c => (if c.error.isSome then none else some (), w)
  | .httpGet _, c => (c.httpGet?, w)
  | .httpDownload _ dest, c => (c.http?, w.setFile dest c.left)
  | .execVersion p, c =>
    match c.error, w.files p with
    | none, some (.image b) => (host.runVersion b, w)
    | _, _ => ({ exitCode := 127, timedOut := false, output := "" }, w)
  | .time, c => (Int64.ofInt c.number, w)
  | .activeSessions, c => (c.number.toNat, w)
  | .readlinkExe, _ => (w.proc.exe, w)
  | .getpid, _ => (w.proc.pid, w)
  | .openTrunc p _, c =>
    if c.error.isSome then (false, w) else (true, w.setFile p (some (.raw "")))
  | .writeAll p content, c =>
    if c.error.isSome then (false, w.setFile p c.left) else (true, w.setFile p (some content))
  | .fsync p, c => if c.error.isSome then (false, w) else (true, w.syncFile p)
  | .close _, c => (c.error.isNone, w)
  | .fsyncDir d, c => ((), if c.error.isSome then w else w.syncDir d)
  | .acquireInProgress, _ => (!w.inProgress, { w with inProgress := true })
  | .releaseInProgress, _ => ((), { w with inProgress := false })
  | .claimResolution, _ =>
    (!w.proc.resolved, { w with proc := { w.proc with resolved := true } })
  | .setDeadlineStop, _ => ((), { w with proc := { w.proc with deadlineStop := true } })
  | .waitDeadline, _ => (w.proc.deadlineStop, w)
  | .joinDeadline, _ => ((), w)
  | .enter _, _ => ((), w)
  | .unsubscribe, _ => ((), w)
  | .isConnected, c => (c.error.isNone, w)
  | .setProperty _ _, c => (if c.error.isSome then none else some (), w)
  | .raiseSigterm, _ => ((), w)
  | .getenv _, c => (c.text?, w)
  | .serviceStatus, c => (if c.error.isSome then none else some (serviceStatusOf c.number), w)
  | .isInteractive, c => (c.error.isNone, w)
  | .managementMenu, c => (if c.error.isSome then none else some (c.number ≠ 0), w)
  | .configureClient, c => (if c.error.isSome then none else some (), w)
  | .initExtensions, c => (if c.error.isSome then none else some (), w)
  | .startClient, c => (if c.error.isSome then none else some (), w)

/-- The host as a machine that performs the operations of a program. -/
def hostMachine {β : Type} (host : Host β) : Machine (sysInterface β) (World β) (Choice β) where
  exec := exec host

end ThinrAgent
