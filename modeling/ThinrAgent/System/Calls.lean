import ThinrAgent.System.Frame

/-!
# `ThinrAgent.System.Calls`: the calls of the agent's code, and their rules

One program for each call the source makes, under a name close to the source's, and one
rule for each in the crash logic. A rule says what the rest of the code has to be ready for:
the answer when the call works, and the answer when it fails. `CanFail A o` tells a proof
that the environment `A` may fail the operation `o`, so an environment without failures
closes the second case.
-/

set_option autoImplicit false

namespace ThinrAgent

open Effects

/-! ### The calls -/

section Calls
variable {β : Type}

/-- The value of a call, or its `filesystem_error`. -/
def orThrow {α : Type} : Option α → SysM β α
  | some a => .ret a
  | none => .throw .filesystemError

/-- `fs::exists(p)`, the overload that throws where the file's status cannot be read. -/
def fsExists (p : Path) : SysM β Bool := .call (.exists p) orThrow

/-- `fs::is_regular_file(p)`, the overload that throws where the file's status cannot be read. -/
def fsIsRegularFile (p : Path) : SysM β Bool := .call (.isRegularFile p) orThrow

/-- An `ifstream` read to its end: nothing when it cannot be opened. -/
def readFile (p : Path) : SysM β (Option (Content β)) := .call (.read p) .ret

/-- `fs::remove(p, ec)`: remove a file. The answer is the error, or none where the file is gone. -/
def fsRemove (p : Path) : SysM β (Option Errno) := .call (.remove p) .ret

/-- `fs::copy_file(src, dst, overwrite_existing, ec)`: the answer is the error, or none where the
copy is complete. -/
def fsCopyFile (src dst : Path) : SysM β (Option Errno) := .call (.copyFile src dst) .ret

/-- `fs::rename(src, dst, ec)`: move a file over another one in a single step. The answer is the
error, or none. -/
def fsRename (src dst : Path) : SysM β (Option Errno) := .call (.rename src dst) .ret

/-- `fs::permissions(p, …exec and read for everybody…, add, ec)`. -/
def fsAddExecPermission (p : Path) : SysM β (Option Errno) := .call (.addExecPermission p) .ret

/-- A request for a text. The result has the status and the body, or the failure of the client. -/
def httpGet (url : String) : SysM β HttpGet := .call (.httpGet url) .ret

/-- A request whose body goes into a file, which may be left half written when the request fails. -/
def httpDownload (url : String) (dest : Path) : SysM β HttpResult :=
  .call (.httpDownload url dest) .ret

/-- `cmd::exec(p, {"--version"}, …)`: run a binary with `--version` and wait for its output or the
end of the time given to it. -/
def execVersion (p : Path) : SysM β ExecResult := .call (.execVersion p) .ret

/-- `std::time`, in seconds. The clock of a device may jump, so two reads are not related. -/
def time : SysM β Int64 := .call .time .ret

/-- `stream_session::active_count()`: how many interactive sessions the agent has open at this
moment. -/
def activeCount : SysM β Nat := .call .activeSessions .ret

/-- The path of the executable the process runs from. There is none where the system does not tell
it. -/
def readlinkExe : SysM β (Option Path) := .call .readlinkExe .ret

/-- The number of the process. It makes the names of temporary files different between processes. -/
def getpid : SysM β Nat := .call .getpid .ret

/-- `open` with `O_CREAT` and `O_TRUNC`: a file that opens is empty. The result is false when it
does not open. -/
def openTrunc (p : Path) (mode : Nat) : SysM β Bool := .call (.openTrunc p mode) .ret

/-- The loop around `write`. When it fails, the file may have any part of the content. -/
def writeAll (p : Path) (content : Content β) : SysM β Bool := .call (.writeAll p content) .ret

/-- `fsync` of a file. Its result is false when it fails, and then the content may be lost in a
power cut. -/
def fsync (p : Path) : SysM β Bool := .call (.fsync p) .ret

/-- `close` of a file. Its result is false when it fails; the content stays as it is. -/
def close (p : Path) : SysM β Bool := .call (.close p) .ret

/-- Open a directory, `fsync` it and close it, ignoring every failure. -/
def fsyncDir (d : Path) : SysM β Unit := .call (.fsyncDir d) .ret

/-- `in_progress.compare_exchange_strong(expected, true)`: try to take the process's lock of an
update. The answer says whether this call got it. -/
def acquireInProgress : SysM β Bool := .call .acquireInProgress .ret

/-- `in_progress.store(false)`: give the process's lock of an update back. -/
def releaseInProgress : SysM β Unit := .call .releaseInProgress .ret

/-- Under `mutex_`: set `resolved_`. It returns `false` when it was set already. -/
def claimResolution : SysM β Bool := .call .claimResolution .ret

/-- Under `deadline_mutex_`: set `deadline_stop_`. Then notify the deadline thread. -/
def setDeadlineStop : SysM β Unit := .call .setDeadlineStop .ret

/-- Wait for `deadline_stop_` or the deadline, and return `deadline_stop_`. -/
def waitDeadline : SysM β Bool := .call .waitDeadline .ret

/-- `deadline_thread_.join()`: wait until the thread of the deadline has come to its end. -/
def joinDeadline : SysM β Unit := .call .joinDeadline .ret

/-- The entry of a function that resolves a trial. It does nothing, and shows in the record of the
operations which way a trial has gone. -/
def enter (r : Resolution) : SysM β Unit := .call (.enter r) .ret

/-- `sub_.reset()`: the watchdog's observer of the client's states is removed from the
dispatcher. -/
def unsubscribe : SysM β Unit := .call .unsubscribe .ret

/-- The connection to the server is up. The network decides, so the answer is free. -/
def isConnected : SysM β Bool := .call .isConnected .ret

/-- Schedule `set_property(name, payload)`. The answer is nothing when scheduling throws, and says
nothing about the delivery. -/
def setProperty (name : String) (payload : Json) : SysM β (Option Unit) :=
  .call (.setProperty name payload) .ret

/-- `raise(SIGTERM)`: the process asks itself to stop, and the service manager starts it again. A
rollback and an applied update bring the other binary to run so. -/
def raiseSigterm : SysM β Unit := .call .raiseSigterm .ret

/-- A variable of the environment, or none when it is not set. -/
def getenv (name : String) : SysM β (Option String) := .call (.getenv name) .ret

/-- `fs::create_directories(p)`, with nothing as the answer when it throws. -/
def fsCreateDirectories (p : Path) : SysM β (Option Unit) := .call (.createDirectories p) .ret

end Calls

/-! ### The rules -/

/-- The environment `A` may fail the operation `o`. -/
def CanFail {β : Type} (A : SysOp β → Choice β → Prop) (o : SysOp β) : Prop :=
  ∃ c e, A o c ∧ c.error = some e

/-- The environment `A` may let the file at `p` be read. -/
def Readable {β : Type} (A : SysOp β → Choice β → Prop) (p : Path) : Prop :=
  ∃ c, A (.read p) c ∧ c.error = none

/-- The operations that write a record, and the ones that restore a backup. -/
def SysOp.vital {β : Type} : SysOp β → Bool
  | .exists _ | .rename _ _ | .openTrunc _ _ | .writeAll _ _ | .fsync _ | .close _
  | .fsyncDir _ => true
  | _ => false

/-- The environment `A` fails no operation that writes a record or restores a backup. -/
def Benign {β : Type} (A : SysOp β → Choice β → Prop) : Prop :=
  ∀ o, o.vital = true → ¬ CanFail A o

/-- The environment `A` fails no operation that writes a file, but for the `fsync` of a directory,
whose failure is ignored. -/
def Writable {β : Type} (A : SysOp β → Choice β → Prop) : Prop :=
  ∀ o, o.vital = true → (∀ d, o ≠ .fsyncDir d) → ¬ CanFail A o

/-- Without failures every file can be written. The converse is false: a directory may fail to sync
where its files can be written. -/
theorem Benign.writable {β : Type} {A : SysOp β → Choice β → Prop} (h : Benign A) : Writable A :=
  fun o ho _ => h o ho

/-- A call on a file that may fail is one of the failures that `Writable` excludes. The sync of a
directory is not among them. -/
theorem not_writable {β : Type} {A : SysOp β → Choice β → Prop} {o : SysOp β} (ho : o.vital = true)
    (hdir : ∀ d, o ≠ .fsyncDir d) (h : CanFail A o) : ¬ Writable A := fun hA => hA o ho hdir h

/-- A vital call that may fail is one of the failures that `Benign` excludes. A proof uses it to
close the branch of the failure. -/
theorem not_benign {β : Type} {A : SysOp β → Choice β → Prop} {o : SysOp β} (ho : o.vital = true)
    (h : CanFail A o) : ¬ Benign A := fun hA => hA o ho h

section Rules

variable {β α : Type} {host : Host β} {A : SysOp β → Choice β → Prop} {J : World β → Prop}
  {Q : Except Exc α → World β → Prop} {w : World β}

/-- The rule for `exists`: the answer is whether there is a file. When it fails, it throws, and
nothing has changed. -/
theorem wp_fsExists {p : Path} {k : Bool → SysM β α} (hJ : J w)
    (hok : cwp (hostMachine host) A J (k (w.files p).isSome) Q w)
    (hthrow : CanFail A (.exists p) → Q (.error .filesystemError) w) :
    cwp (hostMachine host) A J (fsExists p >>= k) Q w := by
  refine ⟨hJ, fun c hc => ?_⟩
  show cwp _ A J (orThrow (exec host w (.exists p) c).1 >>= k) Q w
  cases he : c.error with
  | none => simpa [exec, he, orThrow] using hok
  | some e => simpa [exec, he, orThrow] using ⟨hJ, hthrow ⟨c, e, hc, he⟩⟩

/-- The rule for `is_regular_file`, with any answer. It is asked about the bundles of certificates
only, which no result here is about. -/
theorem wp_fsIsRegularFile {p : Path} {k : Bool → SysM β α} (hJ : J w)
    (hk : ∀ b, cwp (hostMachine host) A J (k b) Q w)
    (hthrow : CanFail A (.isRegularFile p) → Q (.error .filesystemError) w) :
    cwp (hostMachine host) A J (fsIsRegularFile p >>= k) Q w := by
  refine ⟨hJ, fun c hc => ?_⟩
  show cwp _ A J (orThrow (exec host w (.isRegularFile p) c).1 >>= k) Q w
  cases he : c.error with
  | none => simpa [exec, he, orThrow] using hk (w.files p).isSome
  | some e => simpa [exec, he, orThrow] using ⟨hJ, hthrow ⟨c, e, hc, he⟩⟩

/-- The rule for a read, with the fact that the file can be read in the branch in which it was. The
branch without a content is that of a failure. -/
theorem wp_readFile_of_readable {p : Path} {k : Option (Content β) → SysM β α} (hJ : J w)
    (hok : Readable A p → cwp (hostMachine host) A J (k (w.files p)) Q w)
    (hfail : CanFail A (.read p) → cwp (hostMachine host) A J (k none) Q w) :
    cwp (hostMachine host) A J (readFile p >>= k) Q w := by
  refine ⟨hJ, fun c hc => ?_⟩
  show cwp _ A J (k (exec host w (.read p) c).1) Q w
  cases he : c.error with
  | none => simpa [exec, he] using hok ⟨c, hc, he⟩
  | some e => simpa [exec, he] using hfail ⟨c, e, hc, he⟩

/-- The rule for a read, without that fact. -/
theorem wp_readFile {p : Path} {k : Option (Content β) → SysM β α} (hJ : J w)
    (hok : cwp (hostMachine host) A J (k (w.files p)) Q w)
    (hfail : CanFail A (.read p) → cwp (hostMachine host) A J (k none) Q w) :
    cwp (hostMachine host) A J (readFile p >>= k) Q w :=
  wp_readFile_of_readable hJ (fun _ => hok) hfail

/-- After a removal that reports success, the file is gone. A failed one changed nothing. -/
theorem wp_fsRemove {p : Path} {k : Option Errno → SysM β α} (hJ : J w)
    (hk : ∀ r w', World.Scratch [p] w w' → (r = none → w'.files p = none) →
      (r ≠ none → CanFail A (.remove p) ∧ w' = w) → cwp (hostMachine host) A J (k r) Q w') :
    cwp (hostMachine host) A J (fsRemove p >>= k) Q w := by
  refine ⟨hJ, fun c hc => ?_⟩
  show cwp _ A J (k (exec host w (.remove p) c).1) Q (exec host w (.remove p) c).2
  cases he : c.error with
  | some e =>
    simp only [exec, he]
    exact hk _ w (World.Scratch.refl _ _) (by simp) fun _ => ⟨⟨c, e, hc, he⟩, rfl⟩
  | none =>
    simp only [exec, he]
    refine hk none _ ?_ ?_ (by simp)
    · split
      · exact World.Scratch.unlink w p
      · exact World.Scratch.refl _ _
    · intro _
      split
      · rw [World.files_eq, World.entry_unlink, World.entry_push_self]
        rfl
      · rename_i h
        simpa using h

/-- A copy that reports success holds the source's content. A failed copy may leave anything
at the destination. -/
theorem wp_fsCopyFile {src dst : Path} {k : Option Errno → SysM β α} (hJ : J w)
    (hok : ∀ content, w.files src = some content →
      cwp (hostMachine host) A J (k none) Q (w.setFile dst (some content)))
    (hfail : ∀ e w', World.Scratch [dst] w w' →
      (w.files src ≠ none → CanFail A (.copyFile src dst)) →
      cwp (hostMachine host) A J (k (some e)) Q w') :
    cwp (hostMachine host) A J (fsCopyFile src dst >>= k) Q w := by
  refine ⟨hJ, fun c hc => ?_⟩
  show cwp _ A J (k (exec host w (.copyFile src dst) c).1) Q
    (exec host w (.copyFile src dst) c).2
  cases he : c.error with
  | some e =>
    simp only [exec, he]
    exact hfail e _ (World.Scratch.setFile _ _ _) fun _ => ⟨c, e, hc, he⟩
  | none =>
    cases hs : w.files src with
    | none =>
      simp only [exec, he, hs]
      exact hfail .enoent w (World.Scratch.refl _ _) fun h => absurd hs h
    | some content =>
      simp only [exec, he, hs]
      exact hok content hs

/-- The rule for `rename`. A rename that works has found its source, and one that fails without a
failure of the system has not found it. -/
theorem wp_fsRename {src dst : Path} {k : Option Errno → SysM β α} (hJ : J w)
    (hok : w.files src ≠ none → cwp (hostMachine host) A J (k none) Q (w.rename src dst))
    (hfail : ∀ e, (w.files src ≠ none → CanFail A (.rename src dst)) →
      cwp (hostMachine host) A J (k (some e)) Q w) :
    cwp (hostMachine host) A J (fsRename src dst >>= k) Q w := by
  refine ⟨hJ, fun c hc => ?_⟩
  show cwp _ A J (k (exec host w (.rename src dst) c).1) Q (exec host w (.rename src dst) c).2
  cases he : c.error with
  | some e =>
    simp only [exec, he]
    exact hfail e fun _ => ⟨c, e, hc, he⟩
  | none =>
    cases hs : w.files src with
    | none =>
      simp only [exec, he, hs, Option.isNone_none, if_true]
      exact hfail .enoent fun h => absurd hs h
    | some content =>
      simp only [exec, he, hs, Option.isNone_some, Bool.false_eq_true, if_false]
      exact hok (by simp [hs])

/-- The rule for a rename onto another name: the file is moved, or it fails and nothing has
changed. -/
theorem wp_fsRename_of_ne {src dst : Path} {k : Option Errno → SysM β α} (hne : src ≠ dst)
    (hJ : J w)
    (hok : w.files src ≠ none → cwp (hostMachine host) A J (k none) Q (w.move src dst))
    (hfail : ∀ e, (w.files src ≠ none → CanFail A (.rename src dst)) →
      cwp (hostMachine host) A J (k (some e)) Q w) :
    cwp (hostMachine host) A J (fsRename src dst >>= k) Q w :=
  wp_fsRename hJ (by rwa [World.rename, if_neg hne]) hfail

/-- The rule for the permission bits, which the model does not keep. Whether the call works is
free. -/
theorem wp_fsAddExecPermission {p : Path} {k : Option Errno → SysM β α} (hJ : J w)
    (hk : ∀ r, cwp (hostMachine host) A J (k r) Q w) :
    cwp (hostMachine host) A J (fsAddExecPermission p >>= k) Q w :=
  ⟨hJ, fun _ _ => hk _⟩

/-- The rule for a request: the answer is one that the environment allows, and the world stays. -/
theorem wp_httpGet {url : String} {k : HttpGet → SysM β α} (hJ : J w)
    (hk : ∀ c, A (.httpGet url) c → cwp (hostMachine host) A J (k c.httpGet?) Q w) :
    cwp (hostMachine host) A J (httpGet url >>= k) Q w :=
  ⟨hJ, fun c hc => hk c hc⟩

/-- The rule for a download: the file has what the download has left there, whatever the result
is. -/
theorem wp_httpDownload {url : String} {dest : Path} {k : HttpResult → SysM β α} (hJ : J w)
    (hk : ∀ c, A (.httpDownload url dest) c →
      cwp (hostMachine host) A J (k c.http?) Q (w.setFile dest c.left)) :
    cwp (hostMachine host) A J (httpDownload url dest >>= k) Q w :=
  ⟨hJ, fun c hc => hk c hc⟩

/-- A run that exits with 0 is the run of the image in the file. -/
theorem wp_execVersion {p : Path} {k : ExecResult → SysM β α} (hJ : J w)
    (hk : ∀ r, (r.exitCode = 0 → ∃ b, w.files p = some (.image b) ∧ r = host.runVersion b) →
      cwp (hostMachine host) A J (k r) Q w) :
    cwp (hostMachine host) A J (execVersion p >>= k) Q w := by
  refine ⟨hJ, fun c hc => ?_⟩
  have hw : (exec host w (.execVersion p) c).2 = w := by
    simp only [exec]
    split <;> rfl
  show cwp _ A J (k (exec host w (.execVersion p) c).1) Q (exec host w (.execVersion p) c).2
  rw [hw]
  refine hk _ ?_
  simp only [exec]
  split
  · rename_i b _ hb
    exact fun _ => ⟨b, hb, rfl⟩
  · intro h
    exact absurd h (show (127 : Int) ≠ 0 by decide)

/-- The rule for the clock, for a proof that knows something of the times it may show. -/
theorem wp_time_of_answer {k : Int64 → SysM β α} (hJ : J w)
    (hk : ∀ c, A .time c → cwp (hostMachine host) A J (k (Int64.ofInt c.number)) Q w) :
    cwp (hostMachine host) A J (time >>= k) Q w :=
  ⟨hJ, fun c hc => hk c hc⟩

/-- The rule for the clock, for a proof that is about any time. -/
theorem wp_time {k : Int64 → SysM β α} (hJ : J w)
    (hk : ∀ t, cwp (hostMachine host) A J (k t) Q w) :
    cwp (hostMachine host) A J (time >>= k) Q w :=
  wp_time_of_answer hJ fun _ _ => hk _

/-- The rule for the number of open sessions, which may be any. -/
theorem wp_activeCount {k : Nat → SysM β α} (hJ : J w)
    (hk : ∀ n, cwp (hostMachine host) A J (k n) Q w) :
    cwp (hostMachine host) A J (activeCount >>= k) Q w :=
  ⟨hJ, fun _ _ => hk _⟩

/-- The rule for the path of the executable. It is the one of the process, also when the file there
has been replaced. -/
theorem wp_readlinkExe {k : Option Path → SysM β α} (hJ : J w)
    (hk : cwp (hostMachine host) A J (k w.proc.exe) Q w) :
    cwp (hostMachine host) A J (readlinkExe >>= k) Q w :=
  ⟨hJ, fun _ _ => hk⟩

/-- The rule for the number of the process. -/
theorem wp_getpid {k : Nat → SysM β α} (hJ : J w)
    (hk : cwp (hostMachine host) A J (k w.proc.pid) Q w) :
    cwp (hostMachine host) A J (getpid >>= k) Q w :=
  ⟨hJ, fun _ _ => hk⟩

/-- The rule for `open`: a file that opens is empty from then on. One that does not open stays. -/
theorem wp_openTrunc {p : Path} {mode : Nat} {k : Bool → SysM β α} (hJ : J w)
    (hok : cwp (hostMachine host) A J (k true) Q (w.setFile p (some (.raw ""))))
    (hfail : CanFail A (.openTrunc p mode) → cwp (hostMachine host) A J (k false) Q w) :
    cwp (hostMachine host) A J (openTrunc p mode >>= k) Q w := by
  refine ⟨hJ, fun c hc => ?_⟩
  show cwp _ A J (k (exec host w (.openTrunc p mode) c).1) Q
    (exec host w (.openTrunc p mode) c).2
  cases he : c.error with
  | none => simpa [exec, he] using hok
  | some e => simpa [exec, he] using hfail ⟨c, e, hc, he⟩

/-- The rule for `write`: the file has the content, or any part of it when the call fails. -/
theorem wp_writeAll {p : Path} {content : Content β} {k : Bool → SysM β α} (hJ : J w)
    (hok : cwp (hostMachine host) A J (k true) Q (w.setFile p (some content)))
    (hfail : ∀ v, CanFail A (.writeAll p content) →
      cwp (hostMachine host) A J (k false) Q (w.setFile p v)) :
    cwp (hostMachine host) A J (writeAll p content >>= k) Q w := by
  refine ⟨hJ, fun c hc => ?_⟩
  show cwp _ A J (k (exec host w (.writeAll p content) c).1) Q
    (exec host w (.writeAll p content) c).2
  cases he : c.error with
  | none => simpa [exec, he] using hok
  | some e => simpa [exec, he] using hfail c.left ⟨c, e, hc, he⟩

/-- The rule for `fsync`: the content of the file is durable when the call works. -/
theorem wp_fsync {p : Path} {k : Bool → SysM β α} (hJ : J w)
    (hok : cwp (hostMachine host) A J (k true) Q (w.syncFile p))
    (hfail : CanFail A (.fsync p) → cwp (hostMachine host) A J (k false) Q w) :
    cwp (hostMachine host) A J (fsync p >>= k) Q w := by
  refine ⟨hJ, fun c hc => ?_⟩
  show cwp _ A J (k (exec host w (.fsync p) c).1) Q (exec host w (.fsync p) c).2
  cases he : c.error with
  | none => simpa [exec, he] using hok
  | some e => simpa [exec, he] using hfail ⟨c, e, hc, he⟩

/-- The rule for `close`, which changes no file. Its failure is one that a benign environment does
not have. -/
theorem wp_close {p : Path} {k : Bool → SysM β α} (hJ : J w)
    (hk : ∀ b, (b = false → CanFail A (.close p)) → cwp (hostMachine host) A J (k b) Q w) :
    cwp (hostMachine host) A J (close p >>= k) Q w := by
  refine ⟨hJ, fun c hc => hk c.error.isNone ?_⟩
  intro hb
  cases he : c.error with
  | none => simp [he] at hb
  | some e => exact ⟨c, e, hc, he⟩

/-- The rule for the sync of a directory. Without failures the files of the directory have one entry
each that a power cut can leave. -/
theorem wp_fsyncDir {d : Path} {k : Unit → SysM β α} (hJ : J w)
    (hk : ∀ w', World.Scratch [] w w' →
      (Benign A → d ≠ "" → ∀ p, dirName (parentPath p) = dirName d → w'.disk p = [w'.entry p]) →
      cwp (hostMachine host) A J (k ()) Q w') :
    cwp (hostMachine host) A J (fsyncDir d >>= k) Q w := by
  refine ⟨hJ, fun c hc => hk (exec host w (.fsyncDir d) c).2 ?_ fun hA hd p hp => ?_⟩
  · simp only [exec]
    split
    · exact World.Scratch.refl _ _
    · exact World.Scratch.syncDir w d
  · cases he : c.error with
    | some e => exact absurd ⟨c, e, hc, he⟩ (hA _ rfl)
    | none => simp [exec, he, World.disk, World.syncDir, hd, hp]

/-- The rule for a variable of the environment, which may have any value. -/
theorem wp_getenv {name : String} {k : Option String → SysM β α} (hJ : J w)
    (hk : ∀ value, cwp (hostMachine host) A J (k value) Q w) :
    cwp (hostMachine host) A J (getenv name >>= k) Q w :=
  ⟨hJ, fun _ _ => hk _⟩

/-- The rule for `create_directories`. The model has no directories, so a call that works changes
nothing. -/
theorem wp_fsCreateDirectories {p : Path} {k : Option Unit → SysM β α} (hJ : J w)
    (hok : cwp (hostMachine host) A J (k (some ())) Q w)
    (hfail : CanFail A (.createDirectories p) → cwp (hostMachine host) A J (k none) Q w) :
    cwp (hostMachine host) A J (fsCreateDirectories p >>= k) Q w := by
  refine ⟨hJ, fun c hc => ?_⟩
  show cwp _ A J (k (exec host w (.createDirectories p) c).1) Q w
  cases he : c.error with
  | none => simpa [exec, he] using hok
  | some e => simpa [exec, he] using hfail ⟨c, e, hc, he⟩

/-- The rule for the flag of the updater: it is set afterwards, whether or not it was free. -/
theorem wp_acquireInProgress {k : Bool → SysM β α} (hJ : J w)
    (hk : ∀ free, cwp (hostMachine host) A J (k free) Q { w with inProgress := true }) :
    cwp (hostMachine host) A J (acquireInProgress >>= k) Q w :=
  ⟨hJ, fun _ _ => hk _⟩

end Rules

end ThinrAgent
