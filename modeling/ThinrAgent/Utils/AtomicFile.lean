import Mathlib.Data.List.DropRight
import ThinrAgent.System.Calls

/-!
# `ThinrAgent.Utils.AtomicFile`: `write_atomic`

`writeAtomic` writes a temporary file next to the target, makes its data durable, renames it
over the target and makes the rename durable (`utils/atomic_file.{hpp,cpp}`). The loop of
`write_all` is one operation here: it writes the whole content, or fails with anything in the
file.

`wp_writeAtomic` is its rule. A call that returns `false` has written the temporary file
only. A call that returns `true` has replaced the target, and the new content is durable.
-/

set_option autoImplicit false

namespace ThinrAgent

open Effects

/-- `parent_dir` of `atomic_file.cpp`: what stands before the last slash of a path. A name without a
slash is in `.`, and a name with its only slash in front is in `/`. -/
def parentDir (p : Path) : Path :=
  match p.toList.reverse.dropWhile (· ≠ '/') with
  | [] => "."
  | ['/'] => "/"
  | _ :: dir => String.ofList dir.reverse

/-- The temporary file of the process `pid` for `path`. -/
def tempPath (path : Path) (pid : Nat) : Path := path ++ (".tmp." ++ toString pid)

/-- `write_atomic`: write a temporary file, make it durable, rename it over the target, and make the
rename durable. A failure before the rename removes the temporary file, and one of the last step is
ignored. -/
def writeAtomic {β : Type} (path : Path) (content : Content β) (mode : Nat) : SysM β Bool := do
  let pid ← getpid
  let tmp := tempPath path pid
  if !(← openTrunc tmp mode) then return false
  let written ← writeAll tmp content
  let synced ← if written then fsync tmp else pure false
  let closed ← close tmp
  if !(synced && closed) then
    let _ ← fsRemove tmp
    return false
  if (← fsRename tmp path).isSome then
    let _ ← fsRemove tmp
    return false
  fsyncDir (parentDir path)
  return true

/-- `parentDir` names the directory of the path, and never by the empty name. -/
theorem dirName_parentDir (p : Path) :
    parentDir p ≠ "" ∧ dirName (parentPath p) = dirName (parentDir p) := by
  unfold parentDir parentPath
  -- What stands in front of the last slash, read from the end.
  cases hl : p.toList.reverse.dropWhile (· ≠ '/') with
  | nil => exact ⟨by decide, by decide⟩
  | cons c dir =>
    have hc : c = '/' := by
      have h := List.head?_dropWhile_not (fun c : Char => decide (c ≠ '/')) p.toList.reverse
      simpa only [hl, List.head?_cons, decide_eq_false_iff_not, not_not] using h
    subst hc
    cases dir with
    | nil => exact ⟨by decide, by decide⟩
    | cons d rest =>
      have hne : String.ofList (d :: rest).reverse ≠ "" := by
        intro h
        have := congrArg String.toList h
        simp at this
      refine ⟨hne, ?_⟩
      have hdrop : ('/' :: d :: rest).dropWhile (fun c => decide (c = '/'))
          = (d :: rest).dropWhile (fun c => decide (c = '/')) := by simp
      simp only [hdrop]
      -- The directory may itself end in slashes. If it has nothing else it is the root.
      cases he : (d :: rest).dropWhile (fun c => decide (c = '/')) with
      | nil =>
        rw [show dirName (String.ofList (d :: rest).reverse) = "/" from ?_]
        · decide
        · unfold dirName
          rw [if_neg hne]
          simp only [String.toList_ofList, List.reverse_reverse, he]
      | cons e es =>
        have hidem := List.dropWhile_idempotent (fun c => decide (c = '/')) (d :: rest)
        rw [he] at hidem
        unfold dirName
        simp only [String.toList_ofList, List.reverse_reverse, he, hidem]

/-- The temporary file of a path is another file. -/
theorem tempPath_ne (path : Path) (pid : Nat) : tempPath path pid ≠ path := by
  refine append_ne_self path ?_
  rw [String.toList_append]
  simp

/-- The operations of `writeAtomic`: they work on the temporary file, until it is renamed. -/
inductive AtomicOp {β : Type} (path : Path) : SysOp β → Prop where
  | getpid : AtomicOp path .getpid
  | openTrunc (pid mode : Nat) : AtomicOp path (.openTrunc (tempPath path pid) mode)
  | writeAll (pid : Nat) (content : Content β) :
      AtomicOp path (.writeAll (tempPath path pid) content)
  | fsync (pid : Nat) : AtomicOp path (.fsync (tempPath path pid))
  | close (pid : Nat) : AtomicOp path (.close (tempPath path pid))
  | remove (pid : Nat) : AtomicOp path (.remove (tempPath path pid))
  | rename (pid : Nat) : AtomicOp path (.rename (tempPath path pid) path)
  | fsyncDir : AtomicOp path (.fsyncDir (parentDir path))

/-- An operation that writes nothing but `content` into a file. -/
def WritesOnly {β : Type} (content : Content β) (o : SysOp β) : Prop :=
  ∀ p c, o = .writeAll p c → c = content

/-- Every operation is one of the call, and nothing but the content is written. -/
theorem writeAtomic_ops_content {β : Type} {path : Path} {content : Content β} {mode : Nat} :
    AllOps (fun o => AtomicOp path o ∧ WritesOnly content o)
      (writeAtomic path content mode) := by
  have ops {o : SysOp β} (h : AtomicOp path o) (hc : ∀ p c, o ≠ .writeAll p c) :
      AtomicOp path o ∧ WritesOnly content o := ⟨h, fun p c ho => absurd ho (hc p c)⟩
  -- A call that gives up removes its temporary file.
  have abandon (pid : Nat) : AllOps (fun o => AtomicOp path o ∧ WritesOnly content o)
      (do let _ ← fsRemove (tempPath path pid)
          return false : SysM β Bool) :=
    .bind (.single (ops (.remove pid) (by simp))) fun _ => trivial
  have finish (pid : Nat) (synced : Bool) :
      AllOps (fun o => AtomicOp path o ∧ WritesOnly content o) (do
      let closed ← close (tempPath path pid)
      if !(synced && closed) then
        let _ ← fsRemove (tempPath path pid)
        return false
      if (← fsRename (tempPath path pid) path).isSome then
        let _ ← fsRemove (tempPath path pid)
        return false
      fsyncDir (parentDir path)
      return true : SysM β Bool) := by
    refine .bind (.single (ops (.close pid) (by simp))) fun closed =>
      .ite (fun _ => abandon pid) fun _ => ?_
    refine .bind (.single (ops (.rename pid) (by simp))) fun renamed =>
      .ite (fun _ => abandon pid) fun _ => ?_
    exact .bind (.single (ops .fsyncDir (by simp))) fun _ => trivial
  have written (pid : Nat) : AtomicOp path (.writeAll (tempPath path pid) content) ∧
      WritesOnly content (.writeAll (tempPath path pid) content) := by
    refine ⟨.writeAll pid content, fun p c h => ?_⟩
    cases h
    rfl
  -- The steps in their order, each with its way out.
  unfold writeAtomic
  refine .bind (.single (ops .getpid (by simp))) fun pid => ?_
  refine .bind (.single (ops (.openTrunc pid mode) (by simp))) fun opened =>
    .ite (fun _ => trivial) fun _ => ?_
  refine .bind (.single (written pid)) fun written => ?_
  refine .ite (fun _ => ?_) fun _ => finish pid false
  exact .bind (.single (ops (.fsync pid) (by simp))) fun synced => finish pid synced

/-- Every operation of `writeAtomic` is one of the call's own: on its temporary file, on the path,
or on their directory. -/
theorem writeAtomic_ops {β : Type} {path : Path} {content : Content β} {mode : Nat} :
    AllOps (AtomicOp path) (writeAtomic path content mode) :=
  writeAtomic_ops_content.mono fun _ h => h.1

/-- A failure is a result, never an exception. -/
theorem neverThrows_writeAtomic {β : Type} {path : Path} {content : Content β} {mode : Nat} :
    NeverThrows (writeAtomic path content mode) := by
  have abandon (pid : Nat) : NeverThrows
      (do let _ ← fsRemove (tempPath path pid)
          return false : SysM β Bool) := .bind (.single _) fun _ => trivial
  have finish (pid : Nat) (synced : Bool) : NeverThrows (do
      let closed ← close (tempPath path pid)
      if !(synced && closed) then
        let _ ← fsRemove (tempPath path pid)
        return false
      if (← fsRename (tempPath path pid) path).isSome then
        let _ ← fsRemove (tempPath path pid)
        return false
      fsyncDir (parentDir path)
      return true : SysM β Bool) := by
    refine .bind (.single _) fun closed => .ite (abandon pid) ?_
    refine .bind (.single _) fun renamed => .ite (abandon pid) ?_
    exact .bind (.single _) fun _ => trivial
  -- No operation of the function throws, and both of its ends are made of them.
  unfold writeAtomic
  refine .bind (.single _) fun pid => .bind (.single _) fun opened => .ite trivial ?_
  refine .bind (.single _) fun written => .ite ?_ (finish pid false)
  exact .bind (.single _) fun synced => finish pid synced

/-- The target after a successful write: the new content is there and durable, and only the
target and the temporary file have changed. -/
structure World.Replaced {β : Type} (tmp path : Path) (content : Content β) (w w' : World β) :
    Prop where
  target : w'.entry path = some (content, true)
  scratch : Scratch [tmp, path] w w'
  renamed : RenamedSince w w' tmp path

/-- After a successful call the target has the content. -/
theorem World.Replaced.files_target {β : Type} {tmp path : Path} {content : Content β}
    {w w' : World β} (h : Replaced tmp path content w w') : w'.files path = some content := by
  rw [files_eq, h.target]
  rfl

/-- The target after a rename that a power cut may take back: the cut finds the new content, or what
it could have found before. -/
structure World.Committed {β : Type} (tmp path : Path) (content : Content β) (w w' : World β) : Prop
    extends World.Replaced tmp path content w w' where
  disk : w'.disk path ⊆ some (content, true) :: w.disk path

section Rule

variable {β α : Type} {host : Host β} {A : SysOp β → Choice β → Prop} {J : World β → Prop}
  {Q : Except Exc α → World β → Prop} {w : World β}

/-- The rule of `writeAtomic`: the invariant does not see the temporary file and holds once the
target is replaced, and the rest of the code is ready for a failure that left only the temporary
file, and for the replaced target, which no power cut takes back when nothing has failed. -/
theorem wp_writeAtomic_committed {path : Path} {content : Content β} {mode : Nat}
    {k : Bool → SysM β α}
    (hJ : ∀ w', World.Scratch [tempPath path w.proc.pid] w w' → J w')
    (hJrenamed : ∀ w', World.Committed (tempPath path w.proc.pid) path content w w' → J w')
    (hfalse : ¬ Writable A → ∀ w', World.Scratch [tempPath path w.proc.pid] w w' →
      cwp (hostMachine host) A J (k false) Q w')
    (htrue : ∀ w', World.Committed (tempPath path w.proc.pid) path content w w' →
      (Benign A → w'.Durable path content) → cwp (hostMachine host) A J (k true) Q w') :
    cwp (hostMachine host) A J (writeAtomic path content mode >>= k) Q w := by
  have hne := tempPath_ne path w.proc.pid
  have hJ0 : J w := hJ w (World.Scratch.refl _ w)
  unfold writeAtomic
  simp only [Prog.bind_assoc]
  refine wp_getpid hJ0 ?_
  generalize tempPath path w.proc.pid = tmp at hJ hJrenamed hfalse htrue hne ⊢
  -- Every way to `false` removes the temporary file, or has not created it.
  have abandon : ¬ Writable A → ∀ w₁, World.Scratch [tmp] w w₁ →
      cwp (hostMachine host) A J (fsRemove tmp >>= fun _ => k false) Q w₁ := fun hf w₁ hs =>
    wp_fsRemove (hJ w₁ hs) fun _ w₂ hs₂ _ _ => hfalse hf w₂ (hs.trans hs₂)
  -- The rename puts the new entry before those of the target.
  have hdisk {w₁ : World β} (he : w₁.entry tmp = some (content, true))
      (hs : World.Scratch [tmp] w w₁) :
      (w₁.move tmp path).disk path ⊆ some (content, true) :: w.disk path := by
    rw [World.disk_move_dst hne, he]
    exact List.cons_subset_cons _ (hs.disk path (by simpa using hne.symm))
  refine wp_openTrunc hJ0 ?_ fun hf => ?_
  case refine_2 => exact hfalse (not_writable rfl (by simp) hf) w (World.Scratch.refl _ w)
  have hopen := World.Scratch.setFile w tmp (some (.raw ""))
  refine wp_writeAll (hJ _ hopen) ?_ fun v hf => ?_
  case refine_2 =>
    have hw := hopen.trans (World.Scratch.setFile _ tmp v)
    exact wp_close (hJ _ hw) fun b _ => abandon (not_writable rfl (by simp) hf) _ hw
  have hwrite := hopen.trans (World.Scratch.setFile _ tmp (some content))
  refine wp_fsync (hJ _ hwrite) ?_ fun hf => ?_
  case refine_2 =>
    exact wp_close (hJ _ hwrite) fun b _ => abandon (not_writable rfl (by simp) hf) _ hwrite
  have hsync := hwrite.trans (World.Scratch.syncFile _ tmp)
  refine wp_close (hJ _ hsync) fun b hb => ?_
  cases b with
  | false => exact abandon (not_writable rfl (by simp) (hb rfl)) _ hsync
  | true =>
    have hentry : (((w.setFile tmp (some (.raw ""))).setFile tmp (some content)).syncFile
        tmp).entry tmp = some (content, true) := by
      rw [World.entry_syncFile_self, World.setFile, World.entry_push_self]
      rfl
    refine wp_fsRename_of_ne hne (hJ _ hsync) (fun _ => ?_) fun e hf => ?_
    · have hmove := (hsync.mono (by simp)).trans (World.Scratch.move _ tmp path)
      have htarget := (World.entry_move_dst tmp path).trans hentry
      have hrenamed := (hsync.renamedSince_trans (World.Scratch.move _ tmp path)).mpr
        (.inr ((World.Scratch.renamedSince_move _ tmp path).mpr ⟨rfl, rfl⟩))
      refine wp_fsyncDir (hJrenamed _ ⟨⟨htarget, hmove, hrenamed⟩, hdisk hentry hsync⟩)
        fun w' hs hclean => ?_
      have htarget' := (hs.entry path (by simp)).trans htarget
      refine htrue w' ⟨⟨htarget', hmove.trans (hs.mono (by simp)),
        (hmove.renamedSince_trans hs).mpr (.inl hrenamed)⟩,
        fun _ he => hdisk hentry hsync (hs.disk path (by simp) he)⟩ fun hA e he => ?_
      obtain ⟨hdir, hparent⟩ := dirName_parentDir path
      rw [hclean hA hdir path hparent, List.mem_singleton] at he
      rw [he, htarget']
    · exact abandon (not_writable rfl (by simp) (hf (by simp [World.files_eq, hentry]))) _ hsync

/-- The rule where the older entries do not matter. -/
theorem wp_writeAtomic_of_writable {path : Path} {content : Content β} {mode : Nat}
    {k : Bool → SysM β α}
    (hJ : ∀ w', World.Scratch [tempPath path w.proc.pid] w w' → J w')
    (hJrenamed : ∀ w', World.Replaced (tempPath path w.proc.pid) path content w w' → J w')
    (hfalse : ¬ Writable A → ∀ w', World.Scratch [tempPath path w.proc.pid] w w' →
      cwp (hostMachine host) A J (k false) Q w')
    (htrue : ∀ w', World.Replaced (tempPath path w.proc.pid) path content w w' →
      (Benign A → w'.Durable path content) → cwp (hostMachine host) A J (k true) Q w') :
    cwp (hostMachine host) A J (writeAtomic path content mode >>= k) Q w :=
  wp_writeAtomic_committed hJ (fun w' h => hJrenamed w' h.toReplaced) hfalse
    fun w' h => htrue w' h.toReplaced

/-- The rule for an environment in which the `fsync` of the directory counts too. -/
theorem wp_writeAtomic {path : Path} {content : Content β} {mode : Nat} {k : Bool → SysM β α}
    (hJ : ∀ w', World.Scratch [tempPath path w.proc.pid] w w' → J w')
    (hJrenamed : ∀ w', World.Replaced (tempPath path w.proc.pid) path content w w' → J w')
    (hfalse : ¬ Benign A → ∀ w', World.Scratch [tempPath path w.proc.pid] w w' →
      cwp (hostMachine host) A J (k false) Q w')
    (htrue : ∀ w', World.Replaced (tempPath path w.proc.pid) path content w w' →
      (Benign A → w'.Durable path content) → cwp (hostMachine host) A J (k true) Q w') :
    cwp (hostMachine host) A J (writeAtomic path content mode >>= k) Q w :=
  wp_writeAtomic_of_writable hJ hJrenamed (fun h => hfalse fun hA => h hA.writable) htrue

end Rule

end ThinrAgent
