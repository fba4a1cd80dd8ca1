import ThinrAgent.Update.Layout

/-!
# `ThinrAgent.Proofs.Apply`: what `apply_with_watchdog` does to the files

The rules of the steps of `applyWithWatchdog`, and from them one theorem about the whole
(`applyWithWatchdog_spec`). It follows a run that finds no marker through two stages:

* `Layout.Unswapped`: the installed binary is untouched. The files next to it and the marker
  may have been written.
* `Layout.Swapped`: the delivered image is installed, the marker is pending and durable, and
  the backup holds what was installed at the start.

A run that finds a marker changes no file.
-/

set_option autoImplicit false

namespace ThinrAgent

open Effects

/-- The environment `A` can deliver the image `b` for a download to `dest`. A delivered image is one
the server has sent whole. -/
def Delivers {β : Type} (A : SysOp β → Choice β → Prop) (url : String) (dest : Path) (b : β) :
    Prop :=
  ∃ c, A (.httpDownload url dest) c ∧ c.left = some (.image b)

/-! ### The operations -/

/-- The operations of the steps 6 to 8, with the path of the installed binary as the process
finds it. -/
inductive SwapOp {β : Type} (build : Build) (req : ApplyRequest) : SysOp β → Prop where
  | remove (file : Path) : SwapOp build req (.remove file)
  | copy (install : Path) : SwapOp build req (.copyFile install (prevTmpPath install))
  | stage (install : Path) : SwapOp build req (.rename (prevTmpPath install) (prevPath install))
  | time : SwapOp build req .time
  | mark (install : Path) (startedAt : Int64) {o : SysOp β}
      (h : AtomicOp (stateFile req.stateDir) o)
      (hc : WritesOnly (.json (pendingMarker build req install startedAt).toJson) o) :
      SwapOp build req o
  | swap (install : Path) : SwapOp build req (.rename (newPath install) install)
  | sync (install : Path) : SwapOp build req (.fsyncDir (parentPath install))

/-- The operations of an apply: everything that `apply_with_watchdog` may do, with the file or the
address each operation is about. -/
inductive ApplyOp {β : Type} (build : Build) (req : ApplyRequest) : SysOp β → Prop where
  | acquire : ApplyOp build req .acquireInProgress
  | release : ApplyOp build req .releaseInProgress
  | lookup : ApplyOp build req (.exists (stateFile req.stateDir))
  | sessions : ApplyOp build req .activeSessions
  | readlink : ApplyOp build req .readlinkExe
  | download (install : Path) : ApplyOp build req (.httpDownload req.url (newPath install))
  | digest (install : Path) : ApplyOp build req (.read (newPath install))
  | permissions (install : Path) : ApplyOp build req (.addExecPermission (newPath install))
  | probe (install : Path) : ApplyOp build req (.execVersion (newPath install))
  | discard (file : Path) : ApplyOp build req (.remove file)
  | swapping {o : SysOp β} (h : SwapOp build req o) : ApplyOp build req o

/-- The operation takes or releases the guard of the process. It touches no file, so the results
about files pass over it. -/
def SysOp.isGuard {β : Type} : SysOp β → Bool
  | .acquireInProgress => true
  | .releaseInProgress => true
  | _ => false

/-- The operations of an apply while it holds the guard: all of them but those of the guard
itself. -/
def GuardedOp {β : Type} (build : Build) (req : ApplyRequest) (o : SysOp β) : Prop :=
  ApplyOp build req o ∧ o.isGuard = false

section Ops
variable {β : Type} {host : Host β} {build : Build} {req : ApplyRequest}

/-- The atomic write of a record does not touch the guard. -/
theorem AtomicOp.isGuard {path : Path} {o : SysOp β} (h : AtomicOp path o) : o.isGuard = false := by
  cases h <;> rfl

/-- The steps 6 to 8 do not touch the guard, which is released when they are over. -/
theorem SwapOp.isGuard {o : SysOp β} (h : SwapOp build req o) : o.isGuard = false := by
  cases h with
  | mark _ _ h _ => exact h.isGuard
  | _ => rfl

/-- The path of the binary is asked for with one call. -/
private theorem getCurrentBinaryPath_ops :
    AllOps (GuardedOp (β := β) build req) getCurrentBinaryPath := by
  refine .bind (.single ⟨.readlink, rfl⟩) fun link => ?_
  cases link <;> trivial

/-- The check for sessions is one call for the automatic poll, and none for the other origins. -/
private theorem sessionsBusy_ops {origin : UpdateOrigin} :
    AllOps (GuardedOp (β := β) build req) (sessionsBusy origin) :=
  .ite (fun _ => .bind (.single ⟨.sessions, rfl⟩) fun _ => trivial) fun _ => trivial

/-- The steps 1 to 5 are calls on the new file, besides the check for sessions and the path. -/
private theorem fetchBinary_ops {install : Path} :
    AllOps (GuardedOp build req) (fetchBinary host req install) := by
  have refuse (r : ApplyResult) : AllOps (GuardedOp (β := β) build req) (do
      let _ ← fsRemove (newPath install)
      return some r) := .bind (.single ⟨.discard _, rfl⟩) fun _ => trivial
  unfold fetchBinary
  refine .bind (.bind (.single ⟨.download install, rfl⟩) fun r => ?_) fun good => ?_
  · cases r <;> trivial
  refine .ite (fun _ => refuse _) fun _ => .bind ?_ fun matched =>
    .ite (fun _ => refuse _) fun _ => ?_
  · refine .ite (fun _ => trivial) fun _ =>
      .bind (.bind (.single ⟨.digest install, rfl⟩) fun r => ?_)
      fun _ => trivial
    cases r <;> trivial
  refine .bind (.single ⟨.permissions install, rfl⟩) fun _ => ?_
  refine .bind (.bind (.single ⟨.probe install, rfl⟩) fun r => trivial) fun probed => ?_
  refine .ite (fun _ => refuse _) fun _ => .bind sessionsBusy_ops fun busy => ?_
  exact .ite (fun _ => refuse _) fun _ => trivial

/-- The steps 6 to 8 are calls of `SwapOp`. The results about what an apply may write start from
this list. -/
theorem swapBinary_ops {install : Path} :
    AllOps (SwapOp build req) (swapBinary host build req install) := by
  have remove {γ : Type} {p : Path} {f : Option Errno → SysM β γ}
      (hf : ∀ ec, AllOps (SwapOp build req) (f ec)) :
      AllOps (SwapOp build req) (fsRemove p >>= f) := .bind (.single (.remove p)) hf
  unfold swapBinary
  refine remove fun _ => .bind (.single (.copy install)) fun copied => ?_
  refine .ite (fun _ => remove fun _ => trivial) fun _ =>
    .bind (.single (.stage install)) fun staged => ?_
  refine .ite (fun _ => remove fun _ => remove fun _ => trivial) fun _ => ?_
  refine .bind (.single .time) fun startedAt => ?_
  refine .bind (writeAtomic_ops_content.mono fun o ho => .mark install startedAt ho.1 ho.2)
    fun written => ?_
  refine .ite (fun _ => remove fun _ => remove fun _ => trivial) fun _ => ?_
  refine .bind (.single (.swap install)) fun swapped => ?_
  refine .ite (fun _ => remove fun _ => remove fun _ => remove fun _ => trivial) fun _ => ?_
  exact .bind (.single (.sync install)) fun _ => trivial

/-- An apply that holds the guard is the look for a marker, the steps 1 to 5 and the steps 6 to
8. -/
theorem applyGuarded_ops : AllOps (GuardedOp build req) (applyGuarded host build req) := by
  unfold applyGuarded
  refine .bind ⟨⟨.lookup, rfl⟩, fun r => ?_⟩ fun found => .ite (fun _ => trivial) fun _ => ?_
  · cases r <;> trivial
  refine .bind sessionsBusy_ops fun busy => .ite (fun _ => trivial) fun _ => ?_
  refine .bind getCurrentBinaryPath_ops fun install => .bind fetchBinary_ops fun refused => ?_
  cases refused with
  | some r => trivial
  | none => exact swapBinary_ops.mono fun _ h => ⟨.swapping h, h.isGuard⟩

/-- All operations of an apply. What is true of each of them is true of the run, by the rules for
`AllOps`. -/
theorem applyWithWatchdog_ops :
    AllOps (ApplyOp build req) (applyWithWatchdog host build req) := by
  unfold applyWithWatchdog
  refine .ite (fun _ => trivial) fun _ => .bind (.single .acquire) fun free => ?_
  refine .ite (fun _ => trivial) fun _ => .ensure ?_ (.single .release)
  exact applyGuarded_ops.mono fun _ h => h.1

end Ops

/-! ### The rules -/

/-- The digest of a downloaded content is the checksum of the request, if there is one. The digest
of a file that cannot be read is empty, so the bare prefix says nothing then. -/
def Genuine {β : Type} (host : Host β) (A : SysOp β → Choice β → Prop) (req : ApplyRequest)
    (installPath : Path) (content : Content β) : Prop :=
  req.checksum ≠ "" → (req.checksum = "sha256:" → ¬ CanFail A (.read (newPath installPath))) →
    "sha256:" ++ host.sha256 content = req.checksum

/-- The path `get_current_binary_path` computes in a process. The default of the source is a name in
the working directory. -/
def Process.binaryPath (proc : Process) : Path := proc.exe.getD "./thinr-agent"

section Rules

variable {β α : Type} {host : Host β} {A : SysOp β → Choice β → Prop} {J : World β → Prop}
  {Q : Except Exc α → World β → Prop} {w : World β}

/-- The rule for the path of the binary: the computation goes on with the path of the process. -/
theorem wp_getCurrentBinaryPath {k : Path → SysM β α} (hJ : J w)
    (hk : cwp (hostMachine host) A J (k w.proc.binaryPath) Q w) :
    cwp (hostMachine host) A J (getCurrentBinaryPath >>= k) Q w := by
  unfold getCurrentBinaryPath
  rw [Prog.bind_assoc]
  refine wp_readlinkExe hJ ?_
  cases he : w.proc.exe with
  | none => simpa [Process.binaryPath, he] using hk
  | some p => simpa [Process.binaryPath, he] using hk

/-- The rule for the check for sessions, with any answer. An apply that is refused has changed
nothing, so no proof needs to know why. -/
theorem wp_sessionsBusy {origin : UpdateOrigin} {k : Bool → SysM β α}
    (hk : ∀ busy, cwp (hostMachine host) A J (k busy) Q w) :
    cwp (hostMachine host) A J (sessionsBusy origin >>= k) Q w := by
  unfold sessionsBusy
  split
  · rw [Prog.bind_assoc]
    exact wp_activeCount (cwp_inv (hk true)) fun n => hk _
  · exact hk false

/-- A file that passes the check is genuine. -/
theorem wp_checksumMatches {req : ApplyRequest} {installPath : Path} {k : Bool → SysM β α}
    (hno : cwp (hostMachine host) A J (k false) Q w)
    (hyes : (∀ content, w.files (newPath installPath) = some content →
      Genuine host A req installPath content) → cwp (hostMachine host) A J (k true) Q w) :
    cwp (hostMachine host) A J
      (checksumMatches host req.checksum (newPath installPath) >>= k) Q w := by
  have hJ := cwp_inv hno
  unfold checksumMatches computeSha256
  split
  · rename_i hempty
    exact hyes fun _ _ hne => absurd hempty hne
  · -- What is computed for the file is the digest, or empty.
    have compared (digest : String) (h : "sha256:" ++ digest = req.checksum →
        ∀ content, w.files (newPath installPath) = some content →
          Genuine host A req installPath content) : cwp (hostMachine host) A J
        (k (decide ("sha256:" ++ digest = req.checksum))) Q w := by
      by_cases heq : "sha256:" ++ digest = req.checksum
      · rw [decide_eq_true heq]
        exact hyes (h heq)
      · rw [decide_eq_false heq]
        exact hno
    simp only [Prog.bind_assoc]
    -- A file that cannot be read has the empty digest, which only the bare prefix matches.
    refine wp_readFile hJ ?_ fun hf => ?_
    · cases hfile : w.files (newPath installPath) with
      | none => exact compared "" fun _ _ hsome => by simp [hfile] at hsome
      | some content =>
        refine compared _ fun heq content' hsome _ _ => ?_
        obtain rfl : content = content' := by simpa [hfile] using hsome
        exact heq
    · exact compared "" fun heq _ _ _ hread => absurd hf (hread heq.symm)

/-- Whatever a download reports, it wrote at most the destination. -/
theorem wp_downloadBinary {url : String} {dest : Path} {k : Bool → SysM β α} (hJ : J w)
    (hk : ∀ good c, A (.httpDownload url dest) c →
      cwp (hostMachine host) A J (k good) Q (w.setFile dest c.left)) :
    cwp (hostMachine host) A J (downloadBinary url dest >>= k) Q w := by
  unfold downloadBinary
  rw [Prog.bind_assoc]
  refine wp_httpDownload hJ fun c hc => ?_
  cases c.http? with
  | threw => exact hk false c hc
  | networkError => exact hk false c hc
  | response statusCode bytesTransferred => exact hk _ c hc

/-- A version is probed from an image only. A file that is no image reports the empty version, as
the source reads it from an empty output. -/
theorem wp_verifyBinary {file : Path} {k : String → SysM β α} (hJ : J w)
    (hnone : cwp (hostMachine host) A J (k "") Q w)
    (hk : ∀ b, w.files file = some (.image b) →
      cwp (hostMachine host) A J (k (host.reportedVersion b)) Q w) :
    cwp (hostMachine host) A J (verifyBinary file >>= k) Q w := by
  unfold verifyBinary
  rw [Prog.bind_assoc]
  refine wp_execVersion hJ fun r hr => ?_
  show cwp _ A J (k (versionOf r)) Q w
  by_cases h0 : r.exitCode = 0
  · obtain ⟨b, hb, rfl⟩ := hr h0
    exact hk b hb
  · have hv : versionOf r = "" := by simp [versionOf, h0]
    rw [hv]
    exact hnone

/-- Steps 1 to 5: only the downloaded file is written. When they let the update go on, the
file holds a genuine image the environment delivered, and the image reports a version. -/
theorem wp_fetchBinary {req : ApplyRequest} {installPath : Path}
    {k : Option ApplyResult → SysM β α}
    (hJ : ∀ w', World.Scratch [newPath installPath] w w' → J w')
    (hrefuse : ∀ r w', r.st ≠ .updated → World.Scratch [newPath installPath] w w' →
      cwp (hostMachine host) A J (k (some r)) Q w')
    (hok : ∀ b w', World.Scratch [newPath installPath] w w' →
      w'.entry (newPath installPath) = some (.image b, false) →
      Delivers A req.url (newPath installPath) b → host.reportedVersion b ≠ "" →
      Genuine host A req installPath (.image b) → cwp (hostMachine host) A J (k none) Q w') :
    cwp (hostMachine host) A J (fetchBinary host req installPath >>= k) Q w := by
  unfold fetchBinary
  simp only [Prog.bind_assoc]
  refine wp_downloadBinary (hJ w (World.Scratch.refl _ w)) fun good c hc => ?_
  have hs := World.Scratch.setFile w (newPath installPath) c.left
  have hJ1 := hJ _ hs
  -- Every refusal removes the downloaded file.
  have refuse (r : ApplyResult) (hr : r.st ≠ .updated) : cwp (hostMachine host) A J
      (fsRemove (newPath installPath) >>= fun _ => k (some r)) Q
      (w.setFile (newPath installPath) c.left) :=
    wp_fsRemove hJ1 fun _ w' hs' _ _ => hrefuse r w' hr (hs.trans hs')
  cases good with
  | false => exact refuse _ (by simp)
  | true =>
    simp only [Bool.not_true, Bool.false_eq_true, if_false, Prog.bind_assoc]
    refine wp_checksumMatches (refuse _ (by simp)) fun hgenuine => ?_
    simp only [Bool.not_true, Bool.false_eq_true, if_false, Prog.bind_assoc]
    refine wp_fsAddExecPermission hJ1 fun _ => wp_verifyBinary hJ1 (refuse _ (by simp)) ?_
    intro b hfile
    have hb := hfile
    rw [World.files_setFile_self] at hb
    split
    · exact refuse _ (by simp)
    · rename_i hversion
      rw [Prog.bind_assoc]
      refine wp_sessionsBusy fun busy => ?_
      cases busy with
      | true => exact refuse _ (by simp [sessionsActive])
      | false =>
        refine hok b _ hs ?_ ⟨c, hc, hb⟩ hversion (hgenuine _ hfile)
        rw [World.setFile, World.entry_push_self, hb]
        rfl

end Rules

/-! ### The two stages -/

namespace Layout

variable {β : Type} (L : Layout) (build : Build) (req : ApplyRequest)

/-- The files a run of the process `pid` writes besides the marker and the binary. -/
def work (pid : Nat) : List Path :=
  [L.path .new, L.path .prevTmp, L.path .prev, L.path (.stateTmp pid)]

/-- The text of the marker of step 7. -/
def pendingContent (startedAt : Int64) : Content β :=
  .json (pendingMarker build req (L.path .install) startedAt).toJson

/-- From `w` to `w'` a run that found no marker has not swapped: the binary is the same. -/
structure Unswapped (w w' : World β) : Prop where
  scratch : World.Scratch (L.path .state :: L.work w.proc.pid) w w'
  state : w'.files (L.path .state) = none ∨
    ∃ t, w'.files (L.path .state) = some (L.pendingContent build req t)

/-- From `w` to `w'` a run that found no marker has installed the image `b`. -/
structure Swapped (b : β) (w w' : World β) : Prop where
  scratch : World.Scratch (L.path .install :: L.path .state :: L.work w.proc.pid) w w'
  install : w'.entry (L.path .install) = some (.image b, false)
  prev : ∃ old, w.files (L.path .install) = some old ∧ w'.files (L.path .prev) = some old
  state : ∃ t, w'.files (L.path .state) = some (L.pendingContent build req t)
  renamed : World.RenamedSince w w' (L.path .new) (L.path .install)
  proc : w'.proc = { w.proc with exe := unlinkExe (L.path .install) w.proc.exe }

variable {L build req} {b : β} {w w₁ w' : World β}

/-- A run that has found no marker has not swapped at its start. -/
theorem Unswapped.refl (h : w.files (L.path .state) = none) : L.Unswapped build req w w :=
  ⟨World.Scratch.refl _ w, .inl h⟩

/-- Writing the working files does not swap: the installed binary and the marker stay, so the state
stays one before the swap. -/
theorem Unswapped.work {X : List Path} (h : L.Unswapped build req w w₁)
    (hX : X ⊆ L.work w.proc.pid) (hs : World.Scratch X w₁ w') : L.Unswapped build req w w' where
  scratch := h.scratch.trans (hs.mono (List.Subset.trans hX (List.subset_cons_self _ _)))
  state := by
    have hne : L.path .state ∉ X := fun hmem => by
      have := hX hmem
      simp [Layout.work] at this
    rw [hs.files hne]
    exact h.state

/-- Writing or removing the marker does not swap. -/
theorem Unswapped.of_state (h : L.Unswapped build req w w₁)
    (hs : World.Scratch [L.path (.stateTmp w.proc.pid), L.path .state] w₁ w')
    (hstate : w'.files (L.path .state) = none ∨
      ∃ t, w'.files (L.path .state) = some (L.pendingContent build req t)) :
    L.Unswapped build req w w' where
  scratch := h.scratch.trans (hs.mono (by simp [Layout.work]))
  state := hstate

/-- The binary is the one at the start. -/
theorem Unswapped.files_install (h : L.Unswapped build req w w') :
    w'.files (L.path .install) = w.files (L.path .install) :=
  h.scratch.files (by simp [Layout.work])

/-- A process that runs the installed binary runs none of the other files. -/
theorem exe_ne {proc : Process} (hexe : proc.binaryPath = L.path .install) {f : UpdateFile}
    (hf : f ≠ .install) : proc.exe ≠ some (L.path f) := by
  intro h
  rw [Process.binaryPath, h] at hexe
  exact hf (L.path_injective hexe)

/-- A run that has not swapped still runs from the installed binary, because none of the files it
has written is its executable. -/
theorem Unswapped.proc (h : L.Unswapped build req w w')
    (hexe : w.proc.binaryPath = L.path .install) : w'.proc = w.proc := by
  refine h.scratch.proc fun p hp => ?_
  simp only [Layout.work, List.mem_cons, List.not_mem_nil, or_false] at hp
  rcases hp with rfl | rfl | rfl | rfl | rfl <;> exact exe_ne hexe (by simp)

/-- What writes no file, after a swap, leaves it a swap. The release of the guard and the sync of
the directory are of this kind. -/
theorem Swapped.trans_scratch (h : L.Swapped build req b w w₁) (hs : World.Scratch [] w₁ w') :
    L.Swapped build req b w w' where
  scratch := h.scratch.trans (hs.mono (List.nil_subset _))
  install := (hs.entry _ List.not_mem_nil).trans h.install
  prev := by
    rw [hs.files List.not_mem_nil]
    exact h.prev
  state := by
    rw [hs.files List.not_mem_nil]
    exact h.state
  renamed := (h.scratch.renamedSince_trans hs).mpr (.inl h.renamed)
  proc := (hs.proc (by simp)).trans h.proc

end Layout

section Rules

variable {β α : Type} {host : Host β} {A : SysOp β → Choice β → Prop} {J : World β → Prop}
  {Q : Except Exc α → World β → Prop} {w : World β} {L : Layout} {build : Build}
  {req : ApplyRequest}

/-- The rule for steps 6 to 8: before the rename of the new binary the state is unswapped, behind it
the backup and the marker are in place. -/
theorem wp_swapBinary {b : β} {k : ApplyResult → SysM β α}
    (hdir : req.stateDir = L.stateDir) (hexe : w.proc.binaryPath = L.path .install)
    (hstate : w.files (L.path .state) = none)
    (hnew : w.entry (L.path .new) = some (.image b, false))
    (hJ : ∀ w', L.Unswapped build req w w' → J w')
    (hfail : ∀ r w', r.st ≠ .updated → L.Unswapped build req w w' →
      cwp (hostMachine host) A J (k r) Q w')
    (hok : ∀ r w', r.st = .updated → L.Swapped build req b w w' →
      (Benign A → ∃ t, w'.Durable (L.path .state) (L.pendingContent build req t)) →
      cwp (hostMachine host) A J (k r) Q w') :
    cwp (hostMachine host) A J (swapBinary host build req (L.path .install) >>= k) Q w := by
  have h0 : L.Unswapped build req w w := .refl hstate
  have hnewMem : [L.path .new] ⊆ L.work w.proc.pid := by simp [Layout.work]
  have hprevMem : [L.path .prev] ⊆ L.work w.proc.pid := by simp [Layout.work]
  have hprevTmpMem : [L.path .prevTmp] ⊆ L.work w.proc.pid := by simp [Layout.work]
  have htmpMem : [L.path (.stateTmp w.proc.pid)] ⊆ L.work w.proc.pid := by simp [Layout.work]
  -- Every failure ends with the removal of the downloaded file.
  have abandon {g : Option Errno → ApplyResult} (hg : ∀ ec, (g ec).st ≠ .updated)
      {w₁ : World β} (h : L.Unswapped build req w w₁) : cwp (hostMachine host) A J
      (fsRemove (L.path .new) >>= fun ec => k (g ec)) Q w₁ :=
    wp_fsRemove (hJ _ h) fun ec w₂ hs _ _ => hfail _ _ (hg ec) (h.work hnewMem hs)
  unfold swapBinary
  rw [hdir]
  simp only [L.newPath_install, L.prevPath_install, L.prevTmpPath_install,
    L.stateFile_stateDir, Prog.bind_assoc]
  refine wp_fsRemove (hJ w h0) fun _ w₁ hs₁ _ _ => ?_
  have h1 := h0.work hprevTmpMem hs₁
  -- Step 6: the copy, and its rename to the backup.
  refine wp_fsCopyFile (hJ _ h1) (fun old hold => ?_) fun e w₂ hs₂ _ => ?_
  case refine_2 => exact abandon (by simp) (h1.work hprevTmpMem hs₂)
  have hold : w.files (L.path .install) = some old := h1.files_install.symm.trans hold
  have hs2 := World.Scratch.setFile w₁ (L.path .prevTmp) (some old)
  have h2 := h1.work hprevTmpMem hs2
  simp only [Option.isSome_none, Bool.false_eq_true, if_false, Prog.bind_assoc]
  refine wp_fsRename_of_ne (L.path_inj.not.mpr (by simp)) (hJ _ h2) (fun _ => ?_) fun e _ => ?_
  case refine_2 =>
    exact wp_fsRemove (hJ _ h2) fun _ w₃ hs₃ _ _ => abandon (by simp) (h2.work hprevTmpMem hs₃)
  have hs3 := (hs2.mono (by simp)).trans (World.Scratch.move _ (L.path .prevTmp) (L.path .prev))
  have h3 := h1.work (by simp [Layout.work]) hs3
  have hnew3 := (hs3.entry (L.path .new) (by simp)).trans
    ((hs₁.entry (L.path .new) (by simp)).trans hnew)
  have hprev3 : ((w₁.setFile (L.path .prevTmp) (some old)).move (L.path .prevTmp)
      (L.path .prev)).files (L.path .prev) = some old := by
    rw [World.files_eq, World.entry_move_dst, ← World.files_eq]
    exact World.files_setFile_self _ _
  generalize World.move _ (L.path .prevTmp) (L.path .prev) = w₃ at h3 hnew3 hprev3 ⊢
  -- Step 7: the marker.
  simp only [Option.isSome_none, Bool.false_eq_true, if_false, Prog.bind_assoc]
  refine wp_time (hJ _ h3) fun startedAt => ?_
  have hpid : w₃.proc.pid = w.proc.pid := h3.scratch.pid
  have htmp {w' : World β}
      (hs : World.Scratch [tempPath (L.path .state) w₃.proc.pid] w₃ w') :
      L.Unswapped build req w w' := h3.work (by rwa [hpid, L.tempPath_state]) hs
  have marked {w' : World β} (hr : World.Replaced (tempPath (L.path .state) w₃.proc.pid)
      (L.path .state) (L.pendingContent build req startedAt) w₃ w') :
      L.Unswapped build req w w' := by
    have hs := hr.scratch
    rw [hpid, L.tempPath_state] at hs
    exact h3.of_state hs (.inr ⟨startedAt, hr.files_target⟩)
  refine wp_writeAtomic (fun w' hs => hJ _ (htmp hs)) (fun w' hr => hJ _ (marked hr))
    (fun _ w₄ hs => ?_) fun w₄ hr hdurable => ?_
  case refine_1 =>
    have h4 := htmp hs
    exact wp_fsRemove (hJ _ h4) fun _ w₅ hs₅ _ _ => abandon (by simp) (h4.work hprevMem hs₅)
  have h4 := marked hr
  have hmarker : w₄.files (L.path .state) = some (L.pendingContent build req startedAt) :=
    hr.files_target
  rw [hpid, L.tempPath_state] at hr
  simp only [Bool.not_true, Bool.false_eq_true, if_false, Prog.bind_assoc]
  -- Step 8: the swap.
  refine wp_fsRename_of_ne (L.path_inj.not.mpr (by simp)) (hJ _ h4) (fun _ => ?_) fun e _ => ?_
  case refine_2 =>
    refine wp_fsRemove (hJ _ h4) fun r w₅ hs₅ hgone hkept => ?_
    have h5 : L.Unswapped build req w w₅ := by
      refine h4.of_state (hs₅.mono (by simp)) ?_
      cases r with
      | none => exact .inl (hgone rfl)
      | some e =>
        rw [(hkept (by simp)).2]
        exact h4.state
    exact wp_fsRemove (hJ _ h5) fun _ w₆ hs₆ _ _ => abandon (by simp) (h5.work hprevMem hs₆)
  have hswap : L.Swapped build req b w (w₄.move (L.path .new) (L.path .install)) := by
    have hmove := World.Scratch.move w₄ (L.path .new) (L.path .install)
    refine ⟨(h4.scratch.mono ?_).trans (hmove.mono (by simp [Layout.work])), ?_,
      ⟨old, hold, ?_⟩, ⟨startedAt, ?_⟩, ?_, ?_⟩
    · exact List.subset_cons_self _ _
    · rw [World.entry_move_dst, hr.scratch.entry _ (by simp), hnew3]
    · rw [hmove.files (by simp), hr.scratch.files (by simp), hprev3]
    · rw [hmove.files (by simp), hmarker]
    · exact (h4.scratch.renamedSince_trans hmove).mpr
        (.inr ((World.Scratch.renamedSince_move _ _ _).mpr ⟨rfl, rfl⟩))
    · rw [World.proc_move_eq, h4.proc hexe, renameExe, if_neg (Layout.exe_ne hexe (by simp))]
  have hkept (hA : Benign A) := (World.Scratch.move w₄ (L.path .new) (L.path .install)).durable
    (hdurable hA) (q := L.path .state) (by simp)
  refine wp_fsyncDir (cwp_inv (hok { st := .updated } _ rfl hswap fun hA => ⟨_, hkept hA⟩))
    fun w' hs _ => ?_
  exact hok _ _ rfl (hswap.trans_scratch hs) fun hA => ⟨_, hs.durable (hkept hA) (by simp)⟩

end Rules

/-! ### The whole run -/

/-- The states that a run of `applyWithWatchdog` reaches from `w`: nothing has changed, only working
files were written, or a probed binary that the address delivers is swapped in over a pending
marker. -/
inductive Layout.Reached {β : Type} (L : Layout) (build : Build) (req : ApplyRequest)
    (host : Host β) (A : SysOp β → Choice β → Prop) (w w' : World β) : Prop where
  | refused (h : World.Scratch [] w w')
  | unswapped (absent : w.files (L.path .state) = none) (h : L.Unswapped build req w w')
  | swapped (b : β) (absent : w.files (L.path .state) = none)
      (delivered : Delivers A req.url (L.path .new) b) (probed : host.reportedVersion b ≠ "")
      (h : L.Swapped build req b w w')

/-- The end of a run from `w`: a run that reports `updated` has swapped. When nothing has failed
a power cut does not take the marker back. -/
def Layout.Ended {β : Type} (L : Layout) (build : Build) (req : ApplyRequest) (host : Host β)
    (A : SysOp β → Choice β → Prop) (w : World β) (r : Except Exc ApplyResult) (w' : World β) :
    Prop :=
  ∀ res, r = .ok res → res.st = .updated →
    ∃ b, Delivers A req.url (L.path .new) b ∧ host.reportedVersion b ≠ "" ∧
      L.Swapped build req b w w' ∧
      (Benign A → ∃ t, w'.Durable (L.path .state) (L.pendingContent build req t))

/-- A genuine image is installed: one that the checksum of the request lets through. -/
def Layout.Authentic {β : Type} (L : Layout) (req : ApplyRequest) (host : Host β)
    (A : SysOp β → Choice β → Prop) (w : World β) : Prop :=
  ∃ b, w.files (L.path .install) = some (.image b) ∧ Genuine host A req L.install (.image b)

/-- The installed binary is the one at the start, or a genuine image. -/
def Layout.Guarded {β : Type} (L : Layout) (req : ApplyRequest) (host : Host β)
    (A : SysOp β → Choice β → Prop) (w w' : World β) : Prop :=
  w'.files (L.path .install) = w.files (L.path .install) ∨ L.Authentic req host A w'

section Spec

variable {β : Type} {host : Host β} {A : SysOp β → Choice β → Prop} {w : World β} {L : Layout}
  {build : Build} {req : ApplyRequest}

/-- A run that does not report `updated` may end in any way. -/
theorem Layout.Ended.of_ne {res : ApplyResult} {w' : World β} (h : res.st ≠ .updated) :
    L.Ended build req host A w (.ok res) w' := by
  rintro _ ⟨rfl⟩ hres
  exact absurd hres h

/-- A run that throws may end in any way. Its caller reports the failure, and no update. -/
theorem Layout.Ended.of_error {e : Exc} {w' : World β} :
    L.Ended build req host A w (.error e) w' := by
  rintro _ ⟨⟩

/-- The steps 1 to 5 in front of a run that does not swap. They have written the new file, which is
one of the working files. -/
theorem Layout.Unswapped.of_scratch {w₁ w' : World β} (hs : World.Scratch [L.path .new] w w₁)
    (h : L.Unswapped build req w₁ w') : L.Unswapped build req w w' where
  scratch := (hs.mono (by simp [Layout.work])).trans (hs.pid ▸ h.scratch)
  state := h.state

/-- The same in front of a run that swaps. The process is still the one that has started the
apply. -/
theorem Layout.Swapped.of_scratch {b : β} {w₁ w' : World β}
    (hs : World.Scratch [L.path .new] w w₁) (hproc : w₁.proc = w.proc)
    (h : L.Swapped build req b w₁ w') : L.Swapped build req b w w' where
  scratch := (hs.mono (by simp [Layout.work])).trans (by rw [← hproc]; exact h.scratch)
  install := h.install
  prev := by
    obtain ⟨old, hold, hprev⟩ := h.prev
    exact ⟨old, (hs.files (by simp)).symm.trans hold, hprev⟩
  state := h.state
  renamed := (hs.renamedSince_trans h.scratch).mpr (.inr h.renamed)
  proc := by rw [h.proc, hproc]

/-! The flag `in_progress` plays no part in what is said of the files and the process. -/

/-- The flag changes no file, so the way to a world is the same from a world with another flag. -/
theorem World.Scratch.flag {X : List Path} {w' : World β} {f g : Bool}
    (h : World.Scratch X { w with inProgress := f } w') :
    World.Scratch X w { w' with inProgress := g } :=
  ⟨h.entry, h.disk, h.renamed, h.shared, h.exe⟩

/-- A swap does not depend on the flag it has started with. -/
theorem Layout.Swapped.flag {b : β} {w' : World β} {f g : Bool}
    (h : L.Swapped build req b { w with inProgress := f } w') :
    L.Swapped build req b w { w' with inProgress := g } :=
  ⟨h.scratch.flag, h.install, h.prev, h.state, h.renamed, h.proc⟩

/-- Neither do the states that a run reaches depend on the lock of the process. -/
theorem Layout.Reached.flag {w' : World β} {f g : Bool}
    (h : L.Reached build req host A { w with inProgress := f } w') :
    L.Reached build req host A w { w' with inProgress := g } := by
  cases h with
  | refused h => exact .refused h.flag
  | unswapped absent h => exact .unswapped absent ⟨h.scratch.flag, h.state⟩
  | swapped b absent delivered probed h => exact .swapped b absent delivered probed h.flag

/-- Neither does the end of a run depend on the lock of the process. -/
theorem Layout.Ended.flag {r : Except Exc ApplyResult} {w' : World β} {f g : Bool}
    (h : L.Ended build req host A { w with inProgress := f } r w') :
    L.Ended build req host A w r { w' with inProgress := g } := by
  intro res hr hres
  obtain ⟨b, hb, hv, hswap, hdurable⟩ := h res hr hres
  exact ⟨b, hb, hv, hswap.flag, hdurable⟩

/-- The run that holds the guard: what it does to the files, and that it installs a genuine image
only. The part without a marker is the rules of the steps, one after the other. -/
theorem applyGuarded_checked (hdir : req.stateDir = L.stateDir)
    (hexe : w.files (L.path .state) = none → w.proc.binaryPath = L.path .install) :
    cwp (hostMachine host) A
      (fun v => L.Reached build req host A w v ∧ L.Guarded req host A w v)
      (applyGuarded host build req)
      (fun r v => L.Ended build req host A w r v ∧
        ∀ res, r = .ok res → res.st = .updated → L.Authentic req host A v) w := by
  have hw : L.Reached build req host A w w ∧ L.Guarded req host A w w :=
    ⟨.refused (World.Scratch.refl _ w), .inl rfl⟩
  have failed {res : ApplyResult} {v : World β} (h : res.st ≠ .updated) :
      L.Ended build req host A w (.ok res) v ∧
        ∀ res', (.ok res : Except Exc ApplyResult) = .ok res' →
        res'.st = .updated → L.Authentic req host A v :=
    ⟨.of_ne h, by rintro _ ⟨rfl⟩ hres; exact absurd hres h⟩
  unfold applyGuarded
  rw [hdir, L.stateFile_stateDir]
  -- The guards in the order of the source: the marker, the sessions, the path of the binary.
  refine wp_fsExists hw ?_ fun _ => ⟨.of_error, nofun⟩
  cases hstate : w.files (L.path .state) with
  | some content => exact ⟨hw, failed (by simp)⟩
  | none =>
    have hexe := hexe hstate
    simp only [Option.isSome_none, Bool.false_eq_true, if_false]
    refine wp_sessionsBusy fun busy => ?_
    cases busy with
    | true => exact ⟨hw, failed (by simp [sessionsActive])⟩
    | false =>
      simp only [Bool.false_eq_true, if_false]
      refine wp_getCurrentBinaryPath hw ?_
      rw [hexe]
      have hfetch {w' : World β} (hs : World.Scratch [L.path .new] w w') :
          L.Unswapped build req w w' :=
        (Layout.Unswapped.refl hstate).work (by simp [Layout.work]) hs
      have unswapped {w' : World β} (h : L.Unswapped build req w w') :
          L.Reached build req host A w w' ∧ L.Guarded req host A w w' :=
        ⟨.unswapped hstate h, .inl h.files_install⟩
      -- Up to the swap only the new file is written; after it the installed image is the one
      -- fetched.
      refine wp_fetchBinary (fun w' hs => unswapped (hfetch hs))
        (fun r w' hr hs => ⟨unswapped (hfetch hs), failed hr⟩) fun b w' hs hnew hb hv hgenuine => ?_
      have hproc : w'.proc = w.proc := (hfetch hs).proc hexe
      rw [← Prog.bind_ret (swapBinary host build req (L.path .install))]
      refine wp_swapBinary hdir (by rw [hproc, hexe])
        ((hs.files (by simp [L.newPath_install])).trans hstate) hnew ?_ ?_ ?_
      · exact fun v h => unswapped (h.of_scratch hs)
      · exact fun r v hr h => ⟨unswapped (h.of_scratch hs), failed hr⟩
      · intro r v hr h hdurable
        have hswap := h.of_scratch hs hproc
        have hauthentic : L.Authentic req host A v :=
          ⟨b, by rw [World.files_eq, h.install]; rfl, hgenuine⟩
        exact ⟨⟨.swapped b hstate hb hv hswap, .inr hauthentic⟩,
          fun _ _ _ => ⟨b, hb, hv, hswap, hdurable⟩, fun _ _ _ => hauthentic⟩

/-- The whole run: what it does to the files, and that it installs a genuine image only. -/
theorem applyWithWatchdog_checked (hdir : req.stateDir = L.stateDir)
    (hexe : w.files (L.path .state) = none → w.proc.binaryPath = L.path .install) :
    cwp (hostMachine host) A
      (fun v => L.Reached build req host A w v ∧ L.Guarded req host A w v)
      (applyWithWatchdog host build req)
      (fun r v => L.Ended build req host A w r v ∧
        ∀ res, r = .ok res → res.st = .updated → L.Authentic req host A v) w := by
  have hw : L.Reached build req host A w w ∧ L.Guarded req host A w w :=
    ⟨.refused (World.Scratch.refl _ w), .inl rfl⟩
  unfold applyWithWatchdog
  split
  · exact ⟨hw, .of_ne (by simp), by rintro _ ⟨rfl⟩ h; cases h⟩
  · have hlocked : L.Reached build req host A w { w with inProgress := true } ∧
        L.Guarded req host A w { w with inProgress := true } :=
      ⟨.refused (World.Scratch.refl _ _).flag, .inl rfl⟩
    refine wp_acquireInProgress hw fun free => ?_
    cases free with
    | false => exact ⟨hlocked, .of_ne (by simp), by rintro _ ⟨rfl⟩ h; cases h⟩
    | true =>
      simp only [Bool.not_true, Bool.false_eq_true, if_false]
      refine cwp_ensure (cwp_mono (applyGuarded_checked hdir hexe)
        (fun v h => ⟨h.1.flag, h.2⟩) ?_)
      -- The guard releases the flag after a value and after an exception.
      intro r v hv hr
      exact ⟨⟨hv.1.flag, hv.2⟩, fun _ _ => ⟨⟨hv.1.flag, hv.2⟩, hr.1.flag, hr.2⟩⟩

/-- What a run does to the files: the states it reaches, and where it ends. It is the half of
`applyWithWatchdog_checked` that says nothing about the checksum. -/
theorem applyWithWatchdog_spec (hdir : req.stateDir = L.stateDir)
    (hexe : w.files (L.path .state) = none → w.proc.binaryPath = L.path .install) :
    cwp (hostMachine host) A (L.Reached build req host A w) (applyWithWatchdog host build req)
      (L.Ended build req host A w) w :=
  cwp_mono (applyWithWatchdog_checked hdir hexe) (fun _ h => h.1) fun _ _ _ h => h.1

end Spec

/-! ### A sample run -/

/-- Binaries are numbers here, and the binary `n` reports the version `n`. -/
def sampleHost : Host Nat where
  sha256 _ := ""
  runVersion n :=
    { exitCode := 0, timedOut := false, output := "thinr-agent version " ++ toString n ++ "\n" }
  strerror _ := ""

/-- The system-wide installation, with the binary 1 installed and running. -/
def sampleWorld : World Nat :=
  .ofFiles (fun p => if p = Layout.system.install then some (.image 1) else none)
    { pid := 1, exe := some Layout.system.install }

/-- A binary of version 1 for the architecture `linux`. -/
def sampleBuild : Build := { version := "1", binarySuffix := "linux" }

/-- A request without a checksum. It is of the kind that the command line makes when a manifest
carries none. -/
def sampleRequest (version : String) : ApplyRequest :=
  { version := version, url := "url", checksum := "", channel := "latest"
    stateDir := Layout.system.stateDir }

/-- The answers to a run that downloads the binary 2 and meets no failure. -/
def sampleAnswers : List (Choice Nat) :=
  [.ok, .ok, .ok, .http (.response 200 1) (some (.image 2))] ++ List.replicate 16 .ok

/-- The marker of an update from 1 to 2 whose new binary has started once. -/
def sampleMarker : UpdateMarker :=
  { pendingMarker sampleBuild (sampleRequest "2") (Layout.system.path .install) 0 with
    attempts := 1 }

/-- The binary 2 on trial, with the backup 1, in a process whose executable is `exe`. -/
def sampleTrial (exe : Path) : World Nat :=
  .ofFiles (fun p =>
      if p = Layout.system.path .install then some (.image 2)
      else if p = Layout.system.path .prev then some (.image 1)
      else if p = Layout.system.path .state then some (.json sampleMarker.toJson)
      else none)
    { pid := 2, exe := some exe }

/-- The answer to an update from 1 to `version`, with the texts of the source. -/
def sampleUpdated (version : String) : ApplyResult :=
  { st := .updated, reason := "ok", message := "update applied: 1 -> " ++ version }

/-- The run of an update to `version` that downloads the binary 2. -/
def sampleUpdate (version : String) : SysM Nat ApplyResult × World Nat :=
  (hostMachine sampleHost).after sampleAnswers
    (applyWithWatchdog sampleHost sampleBuild (sampleRequest version), sampleWorld)

end ThinrAgent
