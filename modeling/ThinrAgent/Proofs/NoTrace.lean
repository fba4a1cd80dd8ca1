import ThinrAgent.Effects.Deeds
import ThinrAgent.Extensions.MarkerDump
import ThinrAgent.Proofs.Apply

/-!
# `ThinrAgent.Proofs.NoTrace`: what a failed apply leaves

A failed or deferred apply is to leave no trace and to say why (`LeavesNoTrace`). It returns
with the reason of the step that failed, the installed binary and the marker are as before,
the files that the call has put next to the binary are gone, and the guard of the process is
released. The removals of the clean-up are assumed to work (`Removable`).

The property compares the end of a run with its way: which operation stopped it, and which
files it created. So it is stated over the deeds of the run (`Machine.deeds`). `stoppedBy`
names the step of an operation by its result alone. It is written from the list of reason
codes of the source, and does not look at what the apply returns.

The code has the property but for four answers (`harmful`): the look for the marker fails, the
copy of the binary fails because the disk is full or leaves a part of the binary behind, and
the marker does not print. `leavesNoTrace_iff` says that a run that has not updated leaves no
trace exactly when none of these was among its answers.

The proof follows the program once. `Account` is what is known of the deeds so far, each call
has a rule that adds its deed to the account (`goes_fsRemove` and so on), and every end of the
apply is judged by `Account.judged` or by `judged_of_harm`.
-/

set_option autoImplicit false

namespace ThinrAgent

open Effects

/-- One operation of the agent on its host, together with the world before it and the answer that
the host gave. -/
abbrev HostDeed (β : Type) := Deed (sysInterface β) (World β) (Choice β)

/-- The operation removes a file. An apply removes files only to clean up behind itself, or in front
of its copy. -/
def SysOp.isRemoval {β : Type} : SysOp β → Bool
  | .remove _ => true
  | _ => false

/-- The environment in which the clean-up works: no removal fails. Every other operation may fail in
any way. -/
def Removable {β : Type} (o : SysOp β) (c : Choice β) : Prop :=
  o.isRemoval = true → c.error = none

/-- Whether an answer fails a removal is decided, so sample runs are admitted by evaluation. -/
instance {β : Type} (o : SysOp β) (c : Choice β) : Decidable (Removable o c) :=
  inferInstanceAs (Decidable (o.isRemoval = true → c.error = none))

/-! ### The property -/

/-- The download that step 1 accepts: a response with the status 200, with which some bytes have
come. -/
def HttpResult.complete : HttpResult → Bool
  | .response statusCode bytesTransferred =>
    decide (statusCode = 200) && decide (bytesTransferred ≠ 0)
  | _ => false

section Property
variable {β : Type} (host : Host β) (req : ApplyRequest) (L : Layout)

/-- The reason code of the step that an operation belongs to, where its result stops the apply. An
operation whose failure the apply passes over, such as setting the permissions, gives none. -/
def stoppedBy : (o : SysOp β) → o.Res → Option String
  | .acquireInProgress, free => bif free then none else some "busy"
  | .exists _, some true => some "restart_pending"
  | .activeSessions, n => bif Nat.ble 1 n then some "sessions_active" else none
  | .httpDownload _ _, res => bif HttpResult.complete res then none else some "download"
  | .read _, content =>
    if "sha256:" ++ (Option.map host.sha256 content).getD "" = req.checksum then none
    else some "checksum"
  | .execVersion _, r => if versionOf r = "" then some "preflight" else none
  | .copyFile _ _, ec => Option.map (fun e => if e = .enospc then "no_space" else "prev_failed") ec
  | .rename _ dst, ec => Option.map (fun _ =>
      if dst = L.path .prev then "prev_failed"
      else if dst = L.path .install then "swap_failed" else "marker_failed") ec
  | .openTrunc _ _, ok => bif ok then none else some "marker_failed"
  | .writeAll _ _, ok => bif ok then none else some "marker_failed"
  | .fsync _, ok => bif ok then none else some "marker_failed"
  | .close _, ok => bif ok then none else some "marker_failed"
  | _, _ => none

/-- The operation with this result may have put a file at the path. A failed download or copy may
have left a part of it there. -/
def creates : (o : SysOp β) → o.Res → Path → Prop
  | .httpDownload _ dest, _, p => p = dest
  | .copyFile _ dst, _, p => p = dst
  | .rename _ dst, ec, p => ec = none ∧ p = dst
  | .openTrunc dst _, ok, p => ok = true ∧ p = dst
  | _, _, _ => False

/-- The reason that a deed of a run gives for the end of the apply, if its result is one that stops
the apply. -/
def reasonOf (d : HostDeed β) : Option String :=
  stoppedBy host req L d.op (d.result (hostMachine host))

/-- The reason code that the deeds of a run ask for: the one of the first step that failed. A run
that has come to no step at all has an error in its request. -/
def failedStep (ds : List (HostDeed β)) : String :=
  (ds.filterMap (reasonOf host req L)).head?.getD "error"

/-- The operation with this result is a copy that failed for lack of space. An apply copies nothing
but the installed binary. -/
def copyFull : (o : SysOp β) → o.Res → Prop
  | .copyFile _ _, ec => ec = some .enospc
  | _, _ => False

/-- From `w` to `w'` an apply has undone its work and says why: it has returned the reason of the
step that failed, and `no_space` exactly for a copy that met a full disk. The binary is the one
from before. So is the marker, which is none where the look for it found none. What the call has
put next to the binary is gone. -/
structure Undone (w : World β) (ds : List (HostDeed β)) (r : Except Exc ApplyResult)
    (w' : World β) : Prop where
  returned : ∃ res, r = .ok res ∧ res.reason = failedStep host req L ds ∧
    (res.reason = "no_space" ↔ ∃ d ∈ ds, copyFull d.op (d.result (hostMachine host)))
  install : w'.files (L.path .install) = w.files (L.path .install)
  state : w'.files (L.path .state) = w.files (L.path .state)
  removed : ∀ f ∈ [UpdateFile.new, .prevTmp, .prev],
    (∃ d ∈ ds, creates d.op (d.result (hostMachine host)) (L.path f)) → w'.files (L.path f) = none

/-- A failed or deferred apply leaves no trace and says why: it has undone its work on the files,
and the guard of the process is as it was. -/
structure LeavesNoTrace (w : World β) (ds : List (HostDeed β)) (r : Except Exc ApplyResult)
    (w' : World β) : Prop extends Undone host req L w ds r w' where
  released : w'.inProgress = w.inProgress

end Property

/-- The answers after which the apply does leave a trace, or names another reason. The look for the
marker fails: it throws. The copy fails because the disk is full: the removal that follows
overwrites the error code before it is read. The copy fails and leaves a part of the binary: nobody
removes it. The clock is read for a marker that does not print: printing it throws. -/
def harmful {β : Type} (host : Host β) (prints : Bool) : HostDeed β → Bool
  | ⟨_, .exists _, c⟩ => c.error.isSome
  | ⟨w, .copyFile src dst, c⟩ =>
    match exec host w (.copyFile src dst) c with
    | (none, _) => false
    | (some e, w') => decide (e = .enospc) || (w'.files dst).isSome
  | ⟨_, .time, _⟩ => !prints
  | _ => false

/-! ### The account of a run -/

section Rules
variable {β α : Type} (host : Host β) (req : ApplyRequest) (L : Layout) (prints : Bool)

/-- What is known of the deeds so far: the reasons they give, in their order, the files that they
may have created, and that none of their answers is harmful. -/
structure Account (ds : List (HostDeed β)) (reasons : List String) (made : List Path) : Prop where
  reasons : ds.filterMap (reasonOf host req L) = reasons
  harmless : ∀ d ∈ ds, harmful host prints d = false
  files : ∀ d ∈ ds, ∀ p, creates d.op (d.result (hostMachine host)) p → p ∈ made

/-- Behind the deeds `pre` and in the world `w`, the program `p` comes to an end of which `Q` holds,
with the deeds of the whole run. -/
def Goes (Q : List (HostDeed β) → Except Exc α → World β → Prop) (pre : List (HostDeed β))
    (p : SysM β α) (w : World β) : Prop :=
  twp (hostMachine host) Removable p (fun ds => Q (pre ++ ds)) w

variable {host req L prints} {Q : List (HostDeed β) → Except Exc α → World β → Prop}
  {pre : List (HostDeed β)} {reasons : List String} {made : List Path} {w : World β}

/-- A program that returns has no more deeds, so the postcondition is asked of those that the run
has performed. -/
theorem goes_ret {a : α} : Goes host Q pre (.ret a) w ↔ Q pre (.ok a) w := by
  simp [Goes, twp]

/-- A program that throws has no more deeds either, and its outcome is the exception. -/
theorem goes_throw {e : Exc} : Goes host Q pre (.throw e) w ↔ Q pre (.error e) w := by
  simp [Goes, twp]

/-- One operation: it joins the deeds, and the program goes on with its result in the world behind
it. -/
theorem goes_call {o : SysOp β} {k : o.Res → SysM β α}
    (h : ∀ c, Removable o c →
      Goes host Q (pre ++ [⟨w, o, c⟩]) (k (exec host w o c).1) (exec host w o c).2) :
    Goes host Q pre (.call o k) w := by
  intro c hc
  have hnext := h c hc
  simp only [Goes, List.append_assoc, List.singleton_append] at hnext
  exact hnext

/-- The same for an operation in front of the rest of a program, as the calls of the source are
written. -/
theorem goes_op {o : SysOp β} {k : o.Res → SysM β α}
    (h : ∀ c, Removable o c →
      Goes host Q (pre ++ [⟨w, o, c⟩]) (k (exec host w o c).1) (exec host w o c).2) :
    Goes host Q pre (Prog.call o .ret >>= k) w := goes_call h

/-- In front of a run there is nothing to tell: no deed, no reason and no file. -/
theorem Account.nil : Account host req L prints ([] : List (HostDeed β)) [] [] :=
  ⟨rfl, by simp, by simp⟩

/-- The files of an account are those that may have been created, so more of them may be listed. -/
theorem Account.mono (h : Account host req L prints pre reasons made) {made' : List Path}
    (hmade : made ⊆ made') : Account host req L prints pre reasons made' :=
  ⟨h.reasons, h.harmless, fun d hd p hp => hmade (h.files d hd p hp)⟩

/-- One more deed that does no harm: its reason and its files join the account. -/
theorem Account.snoc (h : Account host req L prints pre reasons made) (d : HostDeed β)
    {given : Option String} (made' : List Path) (hreason : reasonOf host req L d = given)
    (hharm : harmful host prints d = false)
    (hmade : ∀ p, creates d.op (d.result (hostMachine host)) p → p ∈ made') :
    Account host req L prints (pre ++ [d]) (reasons ++ given.toList) (made ++ made') where
  reasons := by
    rw [List.filterMap_append, h.reasons]
    cases given <;> simp [hreason]
  harmless e he := by
    rcases List.mem_append.mp he with he | he
    · exact h.harmless e he
    · rw [List.mem_singleton.mp he]
      exact hharm
  files e he p hp := by
    rcases List.mem_append.mp he with he | he
    · exact List.mem_append_left _ (h.files e he p hp)
    · rw [List.mem_singleton.mp he] at hp
      exact List.mem_append_right _ (hmade p hp)

/-- A deed that gives no reason and does no harm, and has created the file `p` at most. The rules
for the calls that work use it. -/
theorem Account.creating (h : Account host req L prints pre reasons made) (d : HostDeed β)
    {p : Path} (hreason : reasonOf host req L d = none) (hharm : harmful host prints d = false)
    (hmade : ∀ q, creates d.op (d.result (hostMachine host)) q → q = p) :
    Account host req L prints (pre ++ [d]) reasons (made ++ [p]) := by
  simpa using h.snoc d [p] hreason hharm fun q hq => by simp [hmade q hq]

/-- A deed that gives no reason, does no harm and creates no file leaves the account as it is but
for the deed. -/
theorem Account.silent (h : Account host req L prints pre reasons made) (d : HostDeed β)
    (hreason : reasonOf host req L d = none) (hharm : harmful host prints d = false)
    (hmade : ∀ p, ¬ creates d.op (d.result (hostMachine host)) p) :
    Account host req L prints (pre ++ [d]) reasons made := by
  simpa using h.snoc d [] hreason hharm fun p hp => absurd hp (hmade p)

/-- A deed that stops the apply without harm, and creates no file, adds its reason to the
account. -/
theorem Account.stopping (h : Account host req L prints pre reasons made) (d : HostDeed β)
    {reason : String} (hreason : reasonOf host req L d = some reason)
    (hharm : harmful host prints d = false)
    (hmade : ∀ p, ¬ creates d.op (d.result (hostMachine host)) p) :
    Account host req L prints (pre ++ [d]) (reasons ++ [reason]) made := by
  simpa using h.snoc d [] hreason hharm fun p hp => absurd hp (hmade p)

/-! ### The rules -/

/-- The rule for a removal: it works, as `Removable` says, and the file is gone. This form is for
the ends where an answer was harmful and there is no account. -/
theorem goes_fsRemove_deed {p : Path} {k : Option Errno → SysM β α}
    (h : ∀ c w', World.Scratch [p] w w' → w'.files p = none →
      Goes host Q (pre ++ [⟨w, .remove p, c⟩]) (k none) w') :
    Goes host Q pre (fsRemove p >>= k) w := by
  refine goes_call fun c hc => ?_
  have he : c.error = none := hc rfl
  have hres : exec host w (.remove p) c =
      ((none : Option Errno), if (w.files p).isSome then w.unlink p else w) := by
    simp only [exec, he]
    rfl
  show Goes host Q _ (k (exec host w (.remove p) c).1) (exec host w (.remove p) c).2
  rw [show (exec host w (.remove p) c).1 = none from congrArg Prod.fst hres,
    show (exec host w (.remove p) c).2 = _ from congrArg Prod.snd hres]
  refine h c _ ?_ ?_
  · dsimp only
    split
    · exact .unlink w p
    · exact .refl _ w
  · dsimp only
    split
    · rw [World.files_eq, World.entry_unlink, World.entry_push_self]
      rfl
    · rename_i h
      simpa using h

/-- The rule for a removal with an account: it gives no reason, does no harm and creates nothing. -/
theorem goes_fsRemove {p : Path} {k : Option Errno → SysM β α}
    (hacc : Account host req L prints pre reasons made)
    (h : ∀ pre' w', Account host req L prints pre' reasons made → World.Scratch [p] w w' →
      w'.files p = none → Goes host Q pre' (k none) w') :
    Goes host Q pre (fsRemove p >>= k) w :=
  goes_fsRemove_deed fun c w' hkept hgone =>
    h _ w' (hacc.silent ⟨w, .remove p, c⟩ rfl rfl fun _ => id) hkept hgone

/-- The rule for the look for a marker: one that is there stops the apply, and an answer that is an
error leads into an exception. -/
theorem goes_fsExists {p : Path} {k : Bool → SysM β α}
    (hacc : Account host req L prints pre reasons made)
    (hfound : ∀ pre', Account host req L prints pre' (reasons ++ ["restart_pending"]) made →
      Goes host Q pre' (k true) w)
    (habsent : ∀ pre', Account host req L prints pre' reasons made → w.files p = none →
      Goes host Q pre' (k false) w)
    (hthrow : ∀ pre', (∃ d ∈ pre', harmful host prints d = true) →
      Q pre' (.error .filesystemError) w) :
    Goes host Q pre (fsExists p >>= k) w := by
  refine goes_call fun c hc => ?_
  show Goes host Q _ (orThrow (exec host w (.exists p) c).1 >>= k) w
  cases he : c.error with
  | some e =>
    have hres : (exec host w (.exists p) c).1 = none := by
      simp only [exec, he]
      rfl
    rw [hres]
    refine goes_throw.mpr (hthrow _ ⟨⟨w, .exists p, c⟩, by simp, ?_⟩)
    simp [harmful, he]
  | none =>
    have hres : (exec host w (.exists p) c).1 = some (w.files p).isSome := by
      simp only [exec, he]
      rfl
    have hharm : harmful host prints ⟨w, .exists p, c⟩ = false := by simp [harmful, he]
    rw [hres]
    cases hfile : w.files p with
    | none =>
      refine habsent _ (hacc.silent _ ?_ hharm fun _ => id) hfile
      simp [reasonOf, Deed.result, hostMachine, hres, hfile, stoppedBy]
    | some content =>
      refine hfound _ (hacc.stopping _ ?_ hharm fun _ => id)
      simp [reasonOf, Deed.result, hostMachine, hres, hfile, stoppedBy]

/-- The rule for the activity gate: an open session stops the automatic poll, and the other origins
do not ask. -/
theorem goes_sessionsBusy {origin : UpdateOrigin} {k : Bool → SysM β α}
    (hacc : Account host req L prints pre reasons made)
    (hbusy : ∀ pre', Account host req L prints pre' (reasons ++ ["sessions_active"]) made →
      Goes host Q pre' (k true) w)
    (hfree : ∀ pre', Account host req L prints pre' reasons made → Goes host Q pre' (k false) w) :
    Goes host Q pre (sessionsBusy origin >>= k) w := by
  unfold sessionsBusy
  split
  · refine goes_call fun c _ => ?_
    show Goes host Q _ (k (decide (0 < c.number.toNat))) w
    have hreason : reasonOf host req L ⟨w, .activeSessions, c⟩ =
        bif Nat.ble 1 c.number.toNat then some "sessions_active" else none := rfl
    cases hn : c.number.toNat with
    | zero =>
      rw [hn] at hreason
      exact hfree _ (hacc.silent _ hreason rfl fun _ => id)
    | succ n =>
      rw [hn] at hreason
      exact hbusy _ (hacc.stopping _ hreason rfl fun _ => id)
  · exact hfree _ hacc

/-- The rule for the path of the binary, which the process knows. Asking for it is no step that
could fail. -/
theorem goes_getCurrentBinaryPath {k : Path → SysM β α}
    (hacc : Account host req L prints pre reasons made)
    (h : ∀ pre', Account host req L prints pre' reasons made →
      Goes host Q pre' (k w.proc.binaryPath) w) :
    Goes host Q pre (getCurrentBinaryPath >>= k) w := by
  unfold getCurrentBinaryPath
  rw [Prog.bind_assoc]
  refine goes_op fun c _ => ?_
  have hnext := h _ (hacc.silent ⟨w, .readlinkExe, c⟩ rfl rfl fun _ => id)
  have hexec : exec host w .readlinkExe c = (w.proc.exe, w) := rfl
  rw [hexec]
  cases he : w.proc.exe with
  | none => simpa [Process.binaryPath, he] using hnext
  | some path => simpa [Process.binaryPath, he] using hnext

/-- The rule for the download: it may leave a file at its destination, whether it counts or not. -/
theorem goes_downloadBinary {url : String} {dest : Path} {k : Bool → SysM β α}
    (hacc : Account host req L prints pre reasons made)
    (hbad : ∀ pre' w', Account host req L prints pre' (reasons ++ ["download"]) (made ++ [dest]) →
      World.Scratch [dest] w w' → Goes host Q pre' (k false) w')
    (hgood : ∀ pre' w', Account host req L prints pre' reasons (made ++ [dest]) →
      World.Scratch [dest] w w' → Goes host Q pre' (k true) w') :
    Goes host Q pre (downloadBinary url dest >>= k) w := by
  unfold downloadBinary
  rw [Prog.bind_assoc]
  refine goes_op fun c _ => ?_
  have hkept := World.Scratch.setFile w dest c.left
  have hnext : Goes host Q (pre ++ [⟨w, .httpDownload url dest, c⟩]) (k c.http?.complete)
      (w.setFile dest c.left) := by
    cases hcomplete : c.http?.complete with
    | false =>
      refine hbad _ _ ?_ hkept
      have hreason : reasonOf host req L ⟨w, .httpDownload url dest, c⟩ = some "download" := by
        simp [reasonOf, Deed.result, hostMachine, exec, stoppedBy, hcomplete]
      exact hacc.snoc _ [dest] hreason rfl fun p hp => by simpa [creates] using hp
    | true =>
      refine hgood _ _ (hacc.creating _ ?_ rfl fun p hp => hp) hkept
      simp [reasonOf, Deed.result, hostMachine, exec, stoppedBy, hcomplete]
  have hexec : exec host w (.httpDownload url dest) c = (c.http?, w.setFile dest c.left) := rfl
  rw [hexec]
  cases hres : c.http? with
  | threw => simpa [HttpResult.complete, hres] using hnext
  | networkError => simpa [HttpResult.complete, hres] using hnext
  | response statusCode bytesTransferred => simpa [HttpResult.complete, hres] using hnext

/-- The rule for step 2: the digest of the file is compared where the manifest carries a checksum,
and a difference stops the apply. -/
theorem goes_checksumMatches {file : Path} {k : Bool → SysM β α}
    (hacc : Account host req L prints pre reasons made)
    (hno : ∀ pre', Account host req L prints pre' (reasons ++ ["checksum"]) made →
      Goes host Q pre' (k false) w)
    (hyes : ∀ pre', Account host req L prints pre' reasons made → Goes host Q pre' (k true) w) :
    Goes host Q pre (checksumMatches host req.checksum file >>= k) w := by
  unfold checksumMatches computeSha256
  split
  · exact hyes _ hacc
  · simp only [Prog.bind_assoc]
    refine goes_op fun c _ => ?_
    have hnext (content : Option (Content β))
        (hcontent : (exec host w (.read file) c).1 = content) :
        Goes host Q (pre ++ [⟨w, .read file, c⟩])
          (k (decide ("sha256:" ++ (content.map host.sha256).getD "" = req.checksum))) w := by
      by_cases heq : "sha256:" ++ (content.map host.sha256).getD "" = req.checksum
      · rw [decide_eq_true heq]
        refine hyes _ (hacc.silent _ ?_ rfl fun _ => id)
        simp [reasonOf, Deed.result, hostMachine, hcontent, stoppedBy, heq]
      · rw [decide_eq_false heq]
        refine hno _ (hacc.stopping _ ?_ rfl fun _ => id)
        simp [reasonOf, Deed.result, hostMachine, hcontent, stoppedBy, heq]
    have hread := hnext _ rfl
    have hworld : (exec host w (.read file) c).2 = w := rfl
    rw [hworld]
    generalize (exec host w (.read file) c).1 = content at hread
    cases content with
    | none => exact hread
    | some content => exact hread

/-- The rule for the permission bits: the apply goes on whether they could be set or not. -/
theorem goes_fsAddExecPermission {p : Path} {k : Option Errno → SysM β α}
    (hacc : Account host req L prints pre reasons made)
    (h : ∀ ec pre', Account host req L prints pre' reasons made → Goes host Q pre' (k ec) w) :
    Goes host Q pre (fsAddExecPermission p >>= k) w :=
  goes_call fun c _ => h _ _ (hacc.silent ⟨w, .addExecPermission p, c⟩ rfl rfl fun _ => id)

/-- The rule for the preflight: a binary that reports no version stops the apply, and one that
reports another version than the requested one does not. -/
theorem goes_verifyBinary {file : Path} {k : String → SysM β α}
    (hacc : Account host req L prints pre reasons made)
    (hnone : ∀ pre', Account host req L prints pre' (reasons ++ ["preflight"]) made →
      Goes host Q pre' (k "") w)
    (hsome : ∀ version pre', version ≠ "" → Account host req L prints pre' reasons made →
      Goes host Q pre' (k version) w) :
    Goes host Q pre (verifyBinary file >>= k) w := by
  unfold verifyBinary
  refine goes_call fun c _ => ?_
  have hw : (exec host w (.execVersion file) c).2 = w := by
    simp only [exec]
    split <;> rfl
  show Goes host Q _ (k (versionOf (exec host w (.execVersion file) c).1))
    (exec host w (.execVersion file) c).2
  rw [hw]
  by_cases hv : versionOf (exec host w (.execVersion file) c).1 = ""
  · rw [hv]
    refine hnone _ (hacc.stopping _ ?_ rfl fun _ => id)
    simp [reasonOf, Deed.result, hostMachine, stoppedBy, hv]
  · refine hsome _ _ hv (hacc.silent _ ?_ rfl fun _ => id)
    simp [reasonOf, Deed.result, hostMachine, stoppedBy, hv]

/-- The rule for steps 1 to 5: a refusal names its step and has removed the download, and without a
refusal the account has no reason yet. -/
theorem goes_fetchBinary {k : Option ApplyResult → SysM β α}
    (hacc : Account host req L prints pre [] [])
    (hrefuse : ∀ res pre' w', res.st ≠ .updated → res.reason ≠ "no_space" →
      Account host req L prints pre' [res.reason] [L.path .new] →
      World.Scratch [L.path .new] w w' → w'.files (L.path .new) = none →
      Goes host Q pre' (k (some res)) w')
    (hok : ∀ pre' w', Account host req L prints pre' [] [L.path .new] →
      World.Scratch [L.path .new] w w' → Goes host Q pre' (k none) w') :
    Goes host Q pre (fetchBinary host req (L.path .install) >>= k) w := by
  unfold fetchBinary
  simp only [Prog.bind_assoc, L.newPath_install]
  -- Every refusal removes the downloaded file.
  have refuse {res : ApplyResult} {reason : String} {pre' : List (HostDeed β)} {w' : World β}
      (hres : res.reason = reason) (hst : res.st ≠ .updated) (hns : reason ≠ "no_space")
      (hacc' : Account host req L prints pre' [reason] [L.path .new])
      (hkept : World.Scratch [L.path .new] w w') :
      Goes host Q pre' (fsRemove (L.path .new) >>= fun _ => k (some res)) w' := by
    subst hres
    exact goes_fsRemove hacc' fun pre'' w'' h hkept' hgone =>
      hrefuse res pre'' w'' hst hns h (hkept.trans hkept') hgone
  refine goes_downloadBinary hacc (fun pre₁ w₁ h₁ hkept => ?_) fun pre₁ w₁ h₁ hkept => ?_
  · exact refuse rfl (by simp) (by decide) h₁ hkept
  simp only [Bool.not_true, Bool.false_eq_true, if_false, Prog.bind_assoc]
  refine goes_checksumMatches h₁ (fun pre₂ h₂ => ?_) fun pre₂ h₂ => ?_
  · exact refuse rfl (by simp) (by decide) h₂ hkept
  simp only [Bool.not_true, Bool.false_eq_true, if_false, Prog.bind_assoc]
  refine goes_fsAddExecPermission h₂ fun _ pre₃ h₃ => ?_
  refine goes_verifyBinary h₃ (fun pre₄ h₄ => ?_) fun version pre₄ hversion h₄ => ?_
  · simp only [if_true, Prog.bind_assoc]
    exact refuse rfl (by simp) (by decide) h₄ hkept
  simp only [if_neg hversion, Prog.bind_assoc]
  refine goes_sessionsBusy h₄ (fun pre₅ h₅ => ?_) fun pre₅ h₅ => ?_
  · simp only [if_true, Prog.bind_assoc]
    exact refuse rfl (by simp [sessionsActive]) (by decide) h₅ hkept
  · exact hok pre₅ w₁ h₅ hkept

/-- The rule for a rename onto another name: one that fails gives the reason of its target and has
changed nothing. -/
theorem goes_fsRename {src dst : Path} {k : Option Errno → SysM β α} (reason : String)
    (hne : src ≠ dst) (hacc : Account host req L prints pre reasons made)
    (hreason : (if dst = L.path .prev then "prev_failed"
      else if dst = L.path .install then "swap_failed" else "marker_failed") = reason)
    (hfail : ∀ e pre', Account host req L prints pre' (reasons ++ [reason]) made →
      Goes host Q pre' (k (some e)) w)
    (hok : ∀ pre', Account host req L prints pre' reasons (made ++ [dst]) →
      Goes host Q pre' (k none) (w.move src dst)) :
    Goes host Q pre (fsRename src dst >>= k) w := by
  refine goes_op fun c _ => ?_
  have failed (e : Errno) (hexec : exec host w (.rename src dst) c = (some e, w)) :
      Goes host Q (pre ++ [⟨w, .rename src dst, c⟩])
        (k (exec host w (.rename src dst) c).1) (exec host w (.rename src dst) c).2 := by
    rw [hexec]
    refine hfail e _ (hacc.stopping _ ?_ rfl ?_)
    · simp [reasonOf, Deed.result, hostMachine, hexec, stoppedBy, hreason]
    · simp [Deed.result, hostMachine, hexec, creates]
  cases he : c.error with
  | some e =>
    refine failed e ?_
    simp only [exec, he]
    rfl
  | none =>
    by_cases hsrc : (w.files src).isNone
    · refine failed (e := .enoent) ?_
      simp only [exec, he, hsrc, if_true]
      rfl
    · have hexec : exec host w (.rename src dst) c = ((none : Option Errno), w.move src dst) := by
        simp only [exec, he, hsrc, Bool.false_eq_true, if_false, World.rename, if_neg hne]
        rfl
      rw [hexec]
      refine hok _ (hacc.creating _ ?_ rfl fun q hq => ?_)
      · simp [reasonOf, Deed.result, hostMachine, hexec, stoppedBy]
      · simp only [Deed.result, hostMachine, hexec, creates] at hq
        exact hq.2

/-- The rule for the copy of the installed binary: it works, or it fails and leaves nothing, or it
fails in one of the two ways that are harmful. -/
theorem goes_fsCopyFile {src dst : Path} {k : Option Errno → SysM β α}
    (hacc : Account host req L prints pre reasons made)
    (hharm : ∀ e c w', harmful host prints ⟨w, .copyFile src dst, c⟩ = true →
      exec host w (.copyFile src dst) c = (some e, w') →
      World.Scratch [dst] w w' → Goes host Q (pre ++ [⟨w, .copyFile src dst, c⟩]) (k (some e)) w')
    (hfail : ∀ e pre' w',
      Account host req L prints pre' (reasons ++ ["prev_failed"]) (made ++ [dst]) →
      World.Scratch [dst] w w' → w'.files dst = none → Goes host Q pre' (k (some e)) w')
    (hok : ∀ pre' w', Account host req L prints pre' reasons (made ++ [dst]) →
      World.Scratch [dst] w w' → Goes host Q pre' (k none) w') :
    Goes host Q pre (fsCopyFile src dst >>= k) w := by
  refine goes_op fun c _ => ?_
  have failed (e : Errno) (w' : World β) (hexec : exec host w (.copyFile src dst) c = (some e, w'))
      (hkept : World.Scratch [dst] w w') : Goes host Q (pre ++ [⟨w, .copyFile src dst, c⟩])
        (k (exec host w (.copyFile src dst) c).1) (exec host w (.copyFile src dst) c).2 := by
    have hvalue : harmful host prints ⟨w, .copyFile src dst, c⟩ =
        (decide (e = .enospc) || (w'.files dst).isSome) := by
      simp [harmful, hexec]
    rw [hexec]
    cases hbad : harmful host prints ⟨w, .copyFile src dst, c⟩ with
    | true => exact hharm e c w' hbad hexec hkept
    | false =>
      rw [hbad] at hvalue
      have hboth := (Bool.or_eq_false_iff.mp hvalue.symm)
      refine hfail e _ w' ?_ hkept (by simpa using hboth.2)
      have hreason : reasonOf host req L ⟨w, .copyFile src dst, c⟩ = some "prev_failed" := by
        simp only [reasonOf, Deed.result, hostMachine, hexec, stoppedBy, Option.map_some]
        rw [if_neg (by simpa using hboth.1)]
      exact hacc.snoc _ [dst] hreason hbad fun p hp => by simpa [creates] using hp
  cases he : c.error with
  | some e =>
    refine failed e (w.setFile dst c.left) ?_ (.setFile w dst c.left)
    simp only [exec, he]
    rfl
  | none =>
    cases hsrc : w.files src with
    | none =>
      refine failed .enoent w ?_ (.refl _ w)
      simp only [exec, he, hsrc]
      rfl
    | some content =>
      have hexec : exec host w (.copyFile src dst) c =
          ((none : Option Errno), w.setFile dst (some content)) := by
        simp only [exec, he, hsrc]
        rfl
      rw [hexec]
      refine hok _ _ (hacc.creating _ ?_ ?_ fun q hq => hq) (.setFile w dst _)
      · simp [reasonOf, Deed.result, hostMachine, hexec, stoppedBy]
      · simp [harmful, hexec]

/-- The rule for the clock, read for a marker that prints: it stops nothing, and any time may be
shown. -/
theorem goes_time {k : Int64 → SysM β α} (hprints : prints = true)
    (hacc : Account host req L prints pre reasons made)
    (h : ∀ t pre', Account host req L prints pre' reasons made → Goes host Q pre' (k t) w) :
    Goes host Q pre (time >>= k) w :=
  goes_op fun c _ => h _ _ (hacc.silent ⟨w, .time, c⟩ rfl (by simp [harmful, hprints])
    fun _ => id)

/-- The rule for the sync of a directory, whose failure the apply ignores: no file changes its
content. -/
theorem goes_fsyncDir {d : Path} {k : Unit → SysM β α}
    (hacc : Account host req L prints pre reasons made)
    (h : ∀ pre' w', Account host req L prints pre' reasons made → World.Scratch [] w w' →
      Goes host Q pre' (k ()) w') :
    Goes host Q pre (fsyncDir d >>= k) w := by
  refine goes_op fun c _ => h _ _ (hacc.silent _ rfl rfl fun _ => id) ?_
  simp only [exec]
  split
  · exact .refl _ w
  · exact .syncDir w d

/-- The rule for an operation of `write_atomic` on its temporary file `p`: where its result is bad
it gives the reason of the marker, and in both cases it has written `p` only. -/
theorem goes_marking {o : SysOp β} {k : o.Res → SysM β α} (ok : o.Res → Bool) {p : Path}
    (hacc : Account host req L prints pre reasons made) (hp : p ∈ made)
    (hreason : ∀ r, stoppedBy host req L o r = bif ok r then none else some "marker_failed")
    (hharm : ∀ c, harmful host prints ⟨w, o, c⟩ = false)
    (hcreates : ∀ r q, creates o r q → q = p)
    (hkept : ∀ c, World.Scratch [p] w (exec host w o c).2)
    (hfail : ∀ r pre' w', ok r = false →
      Account host req L prints pre' (reasons ++ ["marker_failed"]) made → World.Scratch [p] w w' →
      Goes host Q pre' (k r) w')
    (hok : ∀ r pre' w', ok r = true → Account host req L prints pre' reasons made →
      World.Scratch [p] w w' → Goes host Q pre' (k r) w') :
    Goes host Q pre (Prog.call o .ret >>= k) w := by
  refine goes_op fun c _ => ?_
  have hmade : made ++ [p] ⊆ made := by simp [hp]
  have hacc' := (hacc.snoc (⟨w, o, c⟩ : HostDeed β) [p] (hreason _) (hharm c)
    fun q hq => by simp [hcreates _ q hq]).mono hmade
  cases hres : ok (exec host w o c).1 with
  | true =>
    refine hok _ _ _ hres ?_ (hkept c)
    simpa [hostMachine, hres, Deed.result] using hacc'
  | false =>
    refine hfail _ _ _ hres ?_ (hkept c)
    simpa [hostMachine, hres, Deed.result] using hacc'

/-- The rule for the write of the marker: one that fails gives the reason of the marker first,
whatever fails behind it, and has written the temporary file at most. -/
theorem goes_writeAtomic {content : Content β} {mode : Nat} {k : Bool → SysM β α}
    (hacc : Account host req L prints pre [] made)
    (hfalse : ∀ pre' rest w', Account host req L prints pre' ("marker_failed" :: rest)
        (made ++ [L.path (.stateTmp w.proc.pid), L.path .state]) →
      World.Scratch [L.path (.stateTmp w.proc.pid)] w w' → Goes host Q pre' (k false) w')
    (htrue : ∀ pre' w', Account host req L prints pre' []
        (made ++ [L.path (.stateTmp w.proc.pid), L.path .state]) →
      World.Scratch [L.path (.stateTmp w.proc.pid), L.path .state] w w' →
      Goes host Q pre' (k true) w') :
    Goes host Q pre (writeAtomic (L.path .state) content mode >>= k) w := by
  unfold writeAtomic
  simp only [Prog.bind_assoc]
  refine goes_op fun c _ => ?_
  have hpid := (hacc.silent ⟨w, .getpid, c⟩ rfl rfl fun _ => id).mono
    (List.subset_append_left made [L.path (.stateTmp w.proc.pid), L.path .state])
  have hexec : exec host w .getpid c = (w.proc.pid, w) := rfl
  rw [hexec]
  simp only [L.tempPath_state]
  have htmp : L.path (.stateTmp w.proc.pid) ∈
      made ++ [L.path (.stateTmp w.proc.pid), L.path .state] := by simp
  have hne : L.path (.stateTmp w.proc.pid) ≠ L.path .state := L.path_inj.not.mpr (by simp)
  have hstate : made ++ [L.path (.stateTmp w.proc.pid), L.path .state] ++ [L.path .state] ⊆
      made ++ [L.path (.stateTmp w.proc.pid), L.path .state] := by simp
  generalize made ++ [L.path (.stateTmp w.proc.pid), L.path .state] = made'
    at hfalse htrue hpid htmp hstate
  generalize L.path (.stateTmp w.proc.pid) = tmp at hfalse htrue htmp hne ⊢
  -- What follows a failure only removes the temporary file, and may fail again.
  have abandon {pre₁ : List (HostDeed β)} {rest : List String} {w₁ : World β}
      (h : Account host req L prints pre₁ ("marker_failed" :: rest) made')
      (hkept : World.Scratch [tmp] w w₁) :
      Goes host Q pre₁ (fsRemove tmp >>= fun _ => k false) w₁ :=
    goes_fsRemove h fun pre₂ w₂ h₂ hkept₂ _ => hfalse pre₂ rest w₂ h₂ (hkept.trans hkept₂)
  have closing {pre₁ : List (HostDeed β)} {w₁ : World β} {g : Bool → SysM β α}
      (h : Account host req L prints pre₁ ["marker_failed"] made')
      (hg : ∀ b, g b = fsRemove tmp >>= fun _ => k false)
      (hkept : World.Scratch [tmp] w w₁) : Goes host Q pre₁ (close tmp >>= g) w₁ := by
    refine goes_marking id h htmp (fun _ => rfl) (fun _ => rfl) (fun _ _ => False.elim)
      (fun c => .refl _ w₁) ?_ ?_
    · intro b pre₂ w₂ _ h₂ hkept₂
      rw [hg b]
      exact abandon h₂ (hkept.trans hkept₂)
    · intro b pre₂ w₂ _ h₂ hkept₂
      rw [hg b]
      exact abandon h₂ (hkept.trans hkept₂)
  -- The temporary file is opened, written, made durable and closed.
  refine goes_marking id hpid htmp (fun _ => rfl) (fun _ => rfl) (fun _ _ hq => hq.2) ?_ ?_ ?_
  · intro c
    simp only [exec]
    split
    · exact .refl _ w
    · exact .setFile w tmp _
  · rintro _ pre₁ w₁ ⟨⟩ h₁ hkept₁
    exact hfalse pre₁ [] w₁ h₁ hkept₁
  rintro _ pre₁ w₁ ⟨⟩ h₁ hkept₁
  simp only [Bool.not_true, Bool.false_eq_true, if_false, Prog.bind_assoc]
  refine goes_marking id h₁ htmp (fun _ => rfl) (fun _ => rfl) (fun _ _ => False.elim) ?_ ?_ ?_
  · intro c
    simp only [exec]
    split
    · exact .setFile w₁ tmp _
    · exact .setFile w₁ tmp _
  · rintro _ pre₂ w₂ ⟨⟩ h₂ hkept₂
    exact closing h₂ (fun b => rfl) (hkept₁.trans hkept₂)
  rintro _ pre₂ w₂ ⟨⟩ h₂ hkept₂
  have hkept₂ := hkept₁.trans hkept₂
  simp only [if_true, Prog.bind_assoc]
  refine goes_marking id h₂ htmp (fun _ => rfl) (fun _ => rfl) (fun _ _ => False.elim) ?_ ?_ ?_
  · intro c
    simp only [exec]
    split
    · exact .refl _ w₂
    · exact .syncFile w₂ tmp
  · rintro _ pre₃ w₃ ⟨⟩ h₃ hkept₃
    exact closing h₃ (fun b => rfl) (hkept₂.trans hkept₃)
  rintro _ pre₃ w₃ ⟨⟩ h₃ hkept₃
  have hkept₃ := hkept₂.trans hkept₃
  refine goes_marking id h₃ htmp (fun _ => rfl) (fun _ => rfl) (fun _ _ => False.elim)
    (fun c => .refl _ w₃) ?_ ?_
  · rintro _ pre₄ w₄ ⟨⟩ h₄ hkept₄
    exact abandon h₄ (hkept₃.trans hkept₄)
  rintro _ pre₄ w₄ ⟨⟩ h₄ hkept₄
  have hkept₄ := hkept₃.trans hkept₄
  simp only [Bool.and_true, Bool.not_true, Bool.false_eq_true, if_false, Prog.bind_assoc]
  refine goes_fsRename "marker_failed" hne h₄ (by simp) ?_ ?_
  · intro e pre₅ h₅
    exact abandon h₅ hkept₄
  · intro pre₅ h₅
    have hkept₅ := (hkept₄.mono (by simp)).trans (.move w₄ tmp (L.path .state))
    exact goes_fsyncDir (h₅.mono hstate) fun pre₆ w₆ h₆ hkept₆ =>
      htrue pre₆ w₆ h₆ (hkept₅.trans (hkept₆.mono (List.nil_subset _)))

end Rules

/-! ### The ends of an apply -/

section Judgement
variable {β : Type} (host : Host β) (req : ApplyRequest) (L : Layout) (prints : Bool)

/-- What is shown of every end of an apply from `w`: where it has not updated, it has undone its
work exactly when none of its answers was harmful. -/
def Judged (w : World β) (ds : List (HostDeed β)) (r : Except Exc ApplyResult)
    (w' : World β) : Prop :=
  (∀ res, r = .ok res → res.st ≠ .updated) →
    (Undone host req L w ds r w' ↔ ∀ d ∈ ds, harmful host prints d = false)

/-- The installed binary and the marker are the ones from before. The steps in front of the marker
keep this, whatever they do. -/
def Untouched (w w' : World β) : Prop :=
  w'.files (L.path .install) = w.files (L.path .install) ∧
    w'.files (L.path .state) = w.files (L.path .state)

variable {host req L prints} {w w₁ w' : World β} {pre ds : List (HostDeed β)} {X made : List Path}

/-- What writes neither the binary nor the marker keeps both as they were. -/
theorem Untouched.step (h : Untouched L w w₁) (hs : World.Scratch X w₁ w')
    (hX : L.path .install ∉ X ∧ L.path .state ∉ X) : Untouched L w w' :=
  ⟨(hs.files hX.1).trans h.1, (hs.files hX.2).trans h.2⟩

/-- A copy that fails for lack of space is one of the harmful answers, so a run without a harmful
answer has not met a full disk there. -/
theorem harmful_of_copyFull {d : HostDeed β}
    (h : copyFull d.op (d.result (hostMachine host))) : harmful host prints d = true := by
  obtain ⟨v, o, c⟩ := d
  cases o with
  | copyFile src dst =>
    have hres : (exec host v (.copyFile src dst) c).1 = some .enospc := h
    rcases hexec : exec host v (.copyFile src dst) c with ⟨ec, v'⟩
    rw [hexec] at hres
    subst hres
    simp [harmful, hexec]
  | _ => exact h.elim

/-- An end behind a harmful answer is judged by showing that it has not undone the work. -/
theorem judged_of_harm {r : Except Exc ApplyResult} {d : HostDeed β} (hd : d ∈ ds)
    (hharm : harmful host prints d = true) (h : ¬ Undone host req L w ds r w') :
    Judged host req L prints w ds r w' := by
  refine fun _ => iff_of_false h fun hall => ?_
  rw [hall d hd] at hharm
  cases hharm

/-- An apply that has thrown has not returned a reason, so it has not undone its work in the sense
of the property. -/
theorem not_undone_error {e : Exc} : ¬ Undone host req L w ds (.error e) w' := by
  rintro ⟨⟨res, hres, -⟩, -, -, -⟩
  cases hres

/-- An end with an account is judged by showing that the work is undone: the reason is the first one
of the account, the binary and the marker are the same, and the files it lists are gone. -/
theorem Account.judged {res : ApplyResult} {rest : List String}
    (h : Account host req L prints ds (res.reason :: rest) made) (hns : res.reason ≠ "no_space")
    (hsame : Untouched L w w')
    (hgone : ∀ f ∈ [UpdateFile.new, .prevTmp, .prev], L.path f ∈ made →
      w'.files (L.path f) = none) : Judged host req L prints w ds (.ok res) w' := by
  refine fun _ => iff_of_true ⟨⟨res, rfl, ?_, ?_⟩, hsame.1, hsame.2, ?_⟩ h.harmless
  · rw [failedStep, h.reasons]
    rfl
  · refine iff_of_false hns fun ⟨d, hd, hfull⟩ => ?_
    have hharm : harmful host prints d = true := harmful_of_copyFull hfull
    rw [h.harmless d hd] at hharm
    cases hharm
  · rintro f hf ⟨d, hd, hcreates⟩
    exact hgone f hf (h.files d hd _ hcreates)

/-- The end behind a harmful copy whose reason is not the full disk, as the removal of the download
has overwritten the error code, and which has kept what the copy has left. -/
theorem judged_of_harmfulCopy {v v' : World β} {src : Path} {c : Choice β} {e : Errno}
    {res : ApplyResult} (hd : ⟨v, .copyFile src (L.path .prevTmp), c⟩ ∈ ds)
    (hexec : exec host v (.copyFile src (L.path .prevTmp)) c = (some e, v'))
    (hharm : harmful host prints ⟨v, .copyFile src (L.path .prevTmp), c⟩ = true)
    (hns : res.reason ≠ "no_space")
    (hkept : w'.files (L.path .prevTmp) = v'.files (L.path .prevTmp)) :
    Judged host req L prints w ds (.ok res) w' := by
  refine judged_of_harm hd hharm fun h => ?_
  have hor : decide (e = .enospc) || (v'.files (L.path .prevTmp)).isSome := by
    simpa [harmful, hexec] using hharm
  rcases Bool.or_eq_true_iff.mp hor with hfull | hleft
  · -- The reason should have been the full disk.
    obtain ⟨res', hres, -, hspace⟩ := h.returned
    cases hres
    have hcopy : copyFull (.copyFile src (L.path .prevTmp))
        (exec host v (.copyFile src (L.path .prevTmp)) c).1 := by
      rw [hexec]
      exact congrArg some (of_decide_eq_true hfull)
    exact absurd (hspace.mpr ⟨_, hd, hcopy⟩) hns
  · -- The part of the copy is still there.
    have hnone := h.removed .prevTmp (by simp) ⟨_, hd, rfl⟩
    rw [← hkept, hnone] at hleft
    cases hleft

/-- The three files next to the binary, one after the other. The backup is asked for only where it
may have been created. -/
theorem gone_of {made : List Path} (hnew : w'.files (L.path .new) = none)
    (htmp : w'.files (L.path .prevTmp) = none)
    (hprev : L.path .prev ∈ made → w'.files (L.path .prev) = none) :
    ∀ f ∈ [UpdateFile.new, .prevTmp, .prev], L.path f ∈ made → w'.files (L.path f) = none := by
  intro f hf hmade
  simp only [List.mem_cons, List.not_mem_nil, or_false] at hf
  rcases hf with rfl | rfl | rfl
  · exact hnew
  · exact htmp
  · exact hprev hmade

end Judgement

section Pass
variable {β : Type} {utf8 : String → Bool} {host : Host β} {build : Build} {req : ApplyRequest}
  {L : Layout} {w w₁ : World β} {pre : List (HostDeed β)}

/-- The texts of the marker that an apply would write are UTF-8. The time in it is a number, so it
plays no part. -/
def markerPrints (utf8 : String → Bool) (build : Build) (req : ApplyRequest) (install : Path) :
    Bool := (pendingMarker build req install 0).prints utf8

/-- Steps 6 to 8 behind a download that was accepted: every end is judged, the two harmful ends of
the copy and the marker that does not print among them. -/
theorem goes_swapBinaryDumping (hdir : req.stateDir = L.stateDir)
    (hstate : w.files (L.path .state) = none)
    (hacc : Account host req L (markerPrints utf8 build req L.install) pre [] [L.path .new])
    (hsame : Untouched L w w₁) :
    Goes host (Judged host req L (markerPrints utf8 build req L.install) w) pre
      (swapBinaryDumping utf8 host build req (L.path .install)) w₁ := by
  unfold swapBinaryDumping
  rw [hdir]
  simp only [L.newPath_install, L.prevPath_install, L.prevTmpPath_install, L.stateFile_stateDir]
  refine goes_fsRemove hacc fun pre₁ w₂ h₁ hs₁ hgone₁ => ?_
  have hsame₁ := hsame.step hs₁ (by simp)
  -- Step 6: the copy, and its rename to the backup.
  refine goes_fsCopyFile h₁ (fun e c w₃ hharm hexec hs₂ => ?_)
    (fun e pre₂ w₃ h₂ hs₂ hgone₂ => ?_) fun pre₂ w₃ h₂ hs₂ => ?_
  case refine_1 =>
    simp only [Option.isSome_some, if_true]
    refine goes_fsRemove_deed fun c' w₄ hs₃ hgone₃ => goes_ret.mpr ?_
    exact judged_of_harmfulCopy (by simp) hexec hharm (by simp) (hs₃.files (by simp))
  case refine_2 =>
    simp only [Option.isSome_some, if_true]
    refine goes_fsRemove h₂ fun pre₃ w₄ h₃ hs₃ hgone₃ => goes_ret.mpr ?_
    have hsame₃ := (hsame₁.step hs₂ (by simp)).step hs₃ (by simp)
    refine Account.judged h₃ (by simp) hsame₃ (gone_of hgone₃ ?_ (by simp))
    rw [hs₃.files (by simp), hgone₂]
  have hsame₂ := hsame₁.step hs₂ (by simp)
  simp only [Option.isSome_none, Bool.false_eq_true, if_false]
  refine goes_fsRename "prev_failed" (L.path_inj.not.mpr (by simp)) h₂ (if_pos rfl)
    (fun e pre₃ h₃ => ?_) fun pre₃ h₃ => ?_
  case refine_1 =>
    simp only [Option.isSome_some, if_true]
    refine goes_fsRemove h₃ fun pre₄ w₄ h₄ hs₄ hgone₄ => ?_
    refine goes_fsRemove h₄ fun pre₅ w₅ h₅ hs₅ hgone₅ => goes_ret.mpr ?_
    have hsame₅ := (hsame₂.step hs₄ (by simp)).step hs₅ (by simp)
    refine Account.judged h₅ (by simp) hsame₅ (gone_of hgone₅ ?_ (by simp))
    rw [hs₅.files (by simp), hgone₄]
  have hs₃ := World.Scratch.move w₃ (L.path .prevTmp) (L.path .prev)
  have hsame₃ := hsame₂.step hs₃ (by simp)
  have htmp₃ : (w₃.move (L.path .prevTmp) (L.path .prev)).files (L.path .prevTmp) = none := by
    rw [World.files_eq, World.entry_move_src (L.path_inj.not.mpr (by simp))]
    rfl
  generalize w₃.move (L.path .prevTmp) (L.path .prev) = w₄ at hsame₃ htmp₃ ⊢
  simp only [Option.isSome_none, Bool.false_eq_true, if_false]
  -- Step 7: the marker is printed, and written.
  have hdump (t : Int64) : dumpMarker (β := β) utf8 (pendingMarker build req (L.path .install) t) =
      if markerPrints utf8 build req L.install then
        .ret (.json (pendingMarker build req (L.path .install) t).toJson)
      else .throw .typeError := rfl
  simp only [hdump]
  cases hprints : markerPrints utf8 build req L.install with
  | false =>
    rw [hprints] at h₃
    refine goes_op fun c _ => goes_throw.mpr ?_
    exact judged_of_harm (d := ⟨w₄, .time, c⟩) (by simp) (by simp [harmful]) not_undone_error
  | true =>
    rw [hprints] at h₃
    refine goes_time rfl h₃ fun t pre₄ h₄ => ?_
    simp only [if_true, Prog.ret_bind]
    refine goes_writeAtomic h₄ (fun pre₅ rest w₅ h₅ hs₅ => ?_) fun pre₅ w₅ h₅ hs₅ => ?_
    · simp only [Bool.not_false, if_true]
      have hsame₅ := hsame₃.step hs₅ (by simp)
      refine goes_fsRemove h₅ fun pre₆ w₆ h₆ hs₆ hgone₆ => ?_
      refine goes_fsRemove h₆ fun pre₇ w₇ h₇ hs₇ hgone₇ => goes_ret.mpr ?_
      have hsame₇ := (hsame₅.step hs₆ (by simp)).step hs₇ (by simp)
      refine Account.judged h₇ (by simp) hsame₇ (gone_of hgone₇ ?_ fun _ => ?_)
      · rw [hs₇.files (by simp), hs₆.files (by simp), hs₅.files (by simp), htmp₃]
      · rw [hs₇.files (by simp), hgone₆]
    -- Step 8: the swap, whose failure takes the marker back as well.
    simp only [Bool.not_true, Bool.false_eq_true, if_false]
    refine goes_fsRename "swap_failed" (L.path_inj.not.mpr (by simp)) h₅ (by simp)
      (fun e pre₆ h₆ => ?_) fun pre₆ h₆ => ?_
    · simp only [Option.isSome_some, if_true]
      refine goes_fsRemove h₆ fun pre₇ w₇ h₇ hs₇ hgone₇ => ?_
      refine goes_fsRemove h₇ fun pre₈ w₈ h₈ hs₈ hgone₈ => ?_
      refine goes_fsRemove h₈ fun pre₉ w₉ h₉ hs₉ hgone₉ => goes_ret.mpr ?_
      have hsame₉ : Untouched L w w₉ := by
        constructor
        · rw [hs₉.files (by simp), hs₈.files (by simp), hs₇.files (by simp), hs₅.files (by simp),
            hsame₃.1]
        · rw [hs₉.files (by simp), hs₈.files (by simp), hgone₇, hstate]
      refine Account.judged h₉ (by simp) hsame₉ (gone_of hgone₉ ?_ fun _ => ?_)
      · rw [hs₉.files (by simp), hs₈.files (by simp), hs₇.files (by simp), hs₅.files (by simp),
          htmp₃]
      · rw [hs₉.files (by simp), hgone₈]
    · simp only [Option.isSome_none, Bool.false_eq_true, if_false]
      refine goes_fsyncDir h₆ fun pre₇ w₇ _ _ => goes_ret.mpr fun hfail => ?_
      exact absurd rfl (hfail _ rfl)

/-- The body that holds the guard: the look for a marker, the two checks for sessions, steps 1 to 5
and steps 6 to 8. -/
theorem goes_applyGuardedDumping (hdir : req.stateDir = L.stateDir)
    (hexe : w.proc.binaryPath = L.path .install)
    (hacc : Account host req L (markerPrints utf8 build req L.install) pre [] []) :
    Goes host (Judged host req L (markerPrints utf8 build req L.install) w) pre
      (applyGuardedDumping utf8 host build req) w := by
  unfold applyGuardedDumping
  rw [hdir, L.stateFile_stateDir]
  have hsame : Untouched L w w := ⟨rfl, rfl⟩
  refine goes_fsExists hacc (fun pre₁ h₁ => ?_) (fun pre₁ h₁ hstate => ?_) fun pre₁ hharm => ?_
  · exact goes_ret.mpr (Account.judged h₁ (by simp) hsame (by simp))
  · simp only [Bool.false_eq_true, if_false]
    refine goes_sessionsBusy h₁ (fun pre₂ h₂ => ?_) fun pre₂ h₂ => ?_
    · exact goes_ret.mpr (Account.judged h₂ (by simp [sessionsActive]) hsame (by simp))
    · simp only [Bool.false_eq_true, if_false]
      refine goes_getCurrentBinaryPath h₂ fun pre₃ h₃ => ?_
      rw [hexe]
      refine goes_fetchBinary h₃ (fun res pre₄ w₁ _ hns h₄ hs₁ hgone => ?_)
        fun pre₄ w₁ h₄ hs₁ => ?_
      · refine goes_ret.mpr (Account.judged h₄ hns (hsame.step hs₁ (by simp)) ?_)
        intro f _ hmade
        rw [List.mem_singleton.mp hmade, hgone]
      · exact goes_swapBinaryDumping hdir hstate h₄ (hsame.step hs₁ (by simp))
  · obtain ⟨d, hd, hharm⟩ := hharm
    exact judged_of_harm hd hharm not_undone_error

/-- The rule for the release of the guard, which comes behind a value and behind an exception as one
more deed. -/
theorem goes_ensure_release {Q : List (HostDeed β) → Except Exc ApplyResult → World β → Prop}
    {p : SysM β ApplyResult}
    (h : Goes host (fun ds r v => ∀ c,
      Q (ds ++ [⟨v, .releaseInProgress, c⟩]) r { v with inProgress := false }) pre p w) :
    Goes host Q pre (p.ensure releaseInProgress) w := by
  refine twp_ensure (twp_mono h fun ds r v hr => ?_)
  intro c _
  have hnext := hr c
  rw [List.append_assoc] at hnext
  exact hnext

/-- The release of the guard is no step of the apply, and no file depends on the guard: the work is
undone with it as it is without it. -/
theorem undone_release {ds : List (HostDeed β)} {r : Except Exc ApplyResult} {v : World β}
    {c : Choice β} {f g : Bool} :
    Undone host req L w (ds ++ [⟨v, .releaseInProgress, c⟩]) r { v with inProgress := g } ↔
      Undone host req L { w with inProgress := f } ds r v := by
  have hreasons : (ds ++ [(⟨v, .releaseInProgress, c⟩ : HostDeed β)]).filterMap
      (reasonOf host req L) = ds.filterMap (reasonOf host req L) := by
    rw [List.filterMap_append]
    exact List.append_nil _
  have hmem (P : HostDeed β → Prop) (hP : ¬ P ⟨v, .releaseInProgress, c⟩) :
      (∃ d ∈ ds ++ [(⟨v, .releaseInProgress, c⟩ : HostDeed β)], P d) ↔ ∃ d ∈ ds, P d := by
    simp [or_and_right, exists_or, hP]
  constructor
  · rintro ⟨⟨res, hres, hreason, hspace⟩, hinstall, hstate, hremoved⟩
    rw [failedStep, hreasons] at hreason
    rw [hmem _ id] at hspace
    exact ⟨⟨res, hres, hreason, hspace⟩, hinstall, hstate, fun f hf hd =>
      hremoved f hf ((hmem _ id).mpr hd)⟩
  · rintro ⟨⟨res, hres, hreason, hspace⟩, hinstall, hstate, hremoved⟩
    refine ⟨⟨res, hres, ?_, ?_⟩, hinstall, hstate, fun f hf hd => hremoved f hf ((hmem _ id).mp hd)⟩
    · rw [failedStep, hreasons]
      exact hreason
    · rw [hmem _ id]
      exact hspace

/-- The whole apply: a request without a version and a call beside another one leave no trace, and
any other call ends as its body does, with the guard released. -/
theorem goes_applyWithWatchdogDumping (hdir : req.stateDir = L.stateDir)
    (hexe : w.proc.binaryPath = L.path .install) :
    Goes host (fun ds r w' => (∀ res, r = .ok res → res.st ≠ .updated) →
        (LeavesNoTrace host req L w ds r w' ↔
          ∀ d ∈ ds, harmful host (markerPrints utf8 build req L.install) d = false)) []
      (applyWithWatchdogDumping utf8 host build req) w := by
  have hsame : Untouched L w w := ⟨rfl, rfl⟩
  unfold applyWithWatchdogDumping
  split
  · refine goes_ret.mpr fun _ => iff_of_true ⟨⟨⟨_, rfl, rfl, ?_⟩, rfl, rfl, ?_⟩, rfl⟩ (by simp)
    · simp
    · simp
  · refine goes_op fun c _ => ?_
    show Goes host _ _ (if !(!w.inProgress) then _ else _) { w with inProgress := true }
    have hreason : reasonOf host req L ⟨w, .acquireInProgress, c⟩ =
        bif !w.inProgress then none else some "busy" := rfl
    cases hflag : w.inProgress with
    | true =>
      rw [hflag] at hreason
      have h₁ : Account host req L (markerPrints utf8 build req L.install) _ ["busy"] [] :=
        Account.nil.stopping _ hreason rfl fun _ => id
      refine goes_ret.mpr fun hfail => ?_
      have hiff := Account.judged h₁ (by simp) hsame (by simp) hfail
      exact ⟨fun h => hiff.mp ⟨h.returned, rfl, rfl, h.removed⟩,
        fun h => ⟨⟨(hiff.mpr h).returned, rfl, rfl, (hiff.mpr h).removed⟩, hflag.symm⟩⟩
    | false =>
      rw [hflag] at hreason
      have h₁ : Account host req L (markerPrints utf8 build req L.install) _ [] [] :=
        Account.nil.silent _ hreason rfl fun _ => id
      refine goes_ensure_release (twp_mono (goes_applyGuardedDumping hdir hexe h₁)
        fun ds r v hjudged c' hfail => ?_)
      have hiff := hjudged hfail
      have hharm (l : List (HostDeed β)) : (∀ d ∈ l ++ [⟨v, .releaseInProgress, c'⟩],
          harmful host (markerPrints utf8 build req L.install) d = false) ↔
          ∀ d ∈ l, harmful host (markerPrints utf8 build req L.install) d = false := by
        simp [or_imp, forall_and, harmful]
      rw [hharm, ← hiff, ← undone_release]
      exact ⟨fun h => h.toUndone, fun h => ⟨h, hflag.symm⟩⟩

/-- Take any complete run of `apply_with_watchdog` that has not updated, for any request, printer
and installation, in which no removal fails. It leaves no trace and says why exactly when the look
for the marker did not fail, a failed copy neither met a full disk nor left a part of the binary,
and the marker prints where its turn came. -/
theorem leavesNoTrace_iff (utf8 : String → Bool) (host : Host β) (build : Build)
    (req : ApplyRequest) (L : Layout) (w : World β) (hdir : req.stateDir = L.stateDir)
    (hexe : w.proc.binaryPath = L.path .install) (cs : List (Choice β))
    (hcs : (hostMachine host).Admits Removable cs
      (applyWithWatchdogDumping utf8 host build req, w))
    (r : Except Exc ApplyResult)
    (hr : ((hostMachine host).after cs
      (applyWithWatchdogDumping utf8 host build req, w)).1.result = some r)
    (hfail : ∀ res, r = .ok res → res.st ≠ .updated) :
    LeavesNoTrace host req L w
        ((hostMachine host).deeds cs (applyWithWatchdogDumping utf8 host build req, w)) r
        ((hostMachine host).after cs (applyWithWatchdogDumping utf8 host build req, w)).2 ↔
      ∀ d ∈ (hostMachine host).deeds cs (applyWithWatchdogDumping utf8 host build req, w),
        harmful host (markerPrints utf8 build req L.install) d = false :=
  twp_ends cs (goes_applyWithWatchdogDumping hdir hexe) hcs hr hfail

end Pass

/-! ### Sample runs -/

/-- The sample update from 1 to 2, with a printer that accepts every text. -/
def samplePrinted : SysM Nat ApplyResult × World Nat :=
  (applyWithWatchdogDumping (fun _ => true) sampleHost sampleBuild (sampleRequest "2"), sampleWorld)

/-- The answers to a run that comes to the swap, where the rename fails. -/
def swapFails : List (Choice Nat) :=
  [.ok, .ok, .ok, .http (.response 200 1) (some (.image 2))] ++ List.replicate 13 .ok ++
    [.fail (.other 13) none] ++ List.replicate 4 .ok

/-- The answers to a run whose copy meets a full disk and leaves a part of the binary. -/
def diskFull : List (Choice Nat) :=
  [.ok, .ok, .ok, .http (.response 200 1) (some (.image 2)), .ok, .ok, .ok,
    .fail .enospc (some (.raw "1"))] ++ List.replicate 2 .ok

/-- The rename of the new binary fails, after the backup and the marker are in place: the marker,
the backup and the download are removed again, and the reason is the swap. -/
theorem leavesNoTrace_iff_sample :
    LeavesNoTrace sampleHost (sampleRequest "2") .system sampleWorld
      ((hostMachine sampleHost).deeds swapFails samplePrinted)
      (.ok { reason := "swap_failed", message := "failed to swap the binary: Success" })
      ((hostMachine sampleHost).after swapFails samplePrinted).2 :=
  (leavesNoTrace_iff (fun _ => true) sampleHost sampleBuild (sampleRequest "2") .system sampleWorld
    rfl rfl swapFails (by decide) _ rfl (by simp)).mpr (by decide)

/-- Not every failed apply leaves no trace. Where the copy meets a full disk, the reason is
`prev_failed`, and the part of the binary that was copied stays. -/
theorem not_leavesNoTrace_sample :
    ¬ ∀ (cs : List (Choice Nat)) (res : ApplyResult),
      (hostMachine sampleHost).Admits Removable cs samplePrinted →
      ((hostMachine sampleHost).after cs samplePrinted).1.result = some (.ok res) →
      res.st ≠ .updated →
      LeavesNoTrace sampleHost (sampleRequest "2") .system sampleWorld
        ((hostMachine sampleHost).deeds cs samplePrinted) (.ok res)
        ((hostMachine sampleHost).after cs samplePrinted).2 := by
  intro h
  have hend := h diskFull _ (by decide) rfl (by simp)
  obtain ⟨res, hres, hreason, -⟩ := hend.returned
  cases hres
  exact absurd hreason (by decide)

end ThinrAgent
