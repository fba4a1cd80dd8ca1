import ThinrAgent.System.Host

/-!
# `ThinrAgent.System.Frame`: what a group of operations leaves alone

`World.Scratch X w w'` says that the way from `w` to `w'` wrote only the files in `X`: every
other file has its entry, a power cut can leave nothing new there, the new renames are among
the files of `X`, and the process is the same when its own executable is not in `X`. Most of
an update happens in scratch files, and the invariants of the protocol do not see it.

The lemmas after it read the entries of a world that one operation has changed.
-/

set_option autoImplicit false

namespace ThinrAgent

namespace World

variable {β : Type} {w : World β}

/-! ### Entries after one change -/

/-- A file that is written has the entry that was written. -/
@[simp] theorem entry_push_self (p : Path) (e : Entry β) : (w.push p e).entry p = e := by
  simp [push]

/-- A write leaves the entry of every other file as it is. -/
theorem entry_push_ne {p q : Path} (e : Entry β) (h : q ≠ p) :
    (w.push p e).entry q = w.entry q := by
  simp [push, h]

/-- A write adds nothing to what a power cut may leave of another file. -/
theorem disk_push_ne {p q : Path} (e : Entry β) (h : q ≠ p) :
    (w.push p e).disk q = w.disk q := by
  simp [disk, push, h]

/-- A write adds its entry in front of those a power cut may leave. The older ones stay possible
until a sync drops them. -/
@[simp] theorem disk_push_self (p : Path) (e : Entry β) :
    (w.push p e).disk p = e :: w.disk p := by
  simp [disk, push]

/-- A write to a file does not touch the process. -/
@[simp] theorem proc_push (p : Path) (e : Entry β) : (w.push p e).proc = w.proc := rfl

/-- A write is not a rename, so the record of the renames stays. -/
@[simp] theorem renamed_push (p : Path) (e : Entry β) : (w.push p e).renamed = w.renamed := rfl

/-- A removed file has the entry of a write of nothing. The difference is in the process: it may
have lost its executable. -/
@[simp] theorem entry_unlink (p q : Path) :
    (w.unlink p).entry q = (w.push p none).entry q := rfl

/-- A power cut may undo a removal as it may undo a write. -/
@[simp] theorem disk_unlink (p q : Path) : (w.unlink p).disk q = (w.push p none).disk q := rfl

/-- A rename gives the target the entry of the source, content and durability together. -/
@[simp] theorem entry_move_dst (src dst : Path) : (w.move src dst).entry dst = w.entry src :=
  entry_push_self dst _

/-- A rename takes the source away. The two names have to differ: a rename of a file to itself does
nothing. -/
theorem entry_move_src {src dst : Path} (h : src ≠ dst) :
    (w.move src dst).entry src = none :=
  (entry_push_ne _ h).trans (entry_push_self src none)

/-- A rename leaves the entry of every third file as it is. -/
theorem entry_move_ne {src dst q : Path} (hs : q ≠ src) (hd : q ≠ dst) :
    (w.move src dst).entry q = w.entry q :=
  (entry_push_ne _ hd).trans (entry_push_ne _ hs)

/-- A rename adds nothing to what a power cut may leave of a third file. -/
theorem disk_move_ne {src dst q : Path} (hs : q ≠ src) (hd : q ≠ dst) :
    (w.move src dst).disk q = w.disk q :=
  (disk_push_ne _ hd).trans (disk_push_ne _ hs)

/-- A rename adds the entry of the source to what a power cut may leave of the target. What the
target was before stays possible. -/
theorem disk_move_dst {src dst : Path} (h : src ≠ dst) :
    (w.move src dst).disk dst = w.entry src :: w.disk dst := by
  show ((w.push src none).push dst (w.entry src)).disk dst = _
  rw [disk_push_self, disk_push_ne _ h.symm]

/-- A rename is recorded, in front of the earlier ones. -/
@[simp] theorem renamed_move (src dst : Path) :
    (w.move src dst).renamed = (src, dst) :: w.renamed := rfl

/-- The process after a rename: a program that runs from the source is followed to the target, and
one that runs from the target is lost. -/
theorem proc_move_eq (src dst : Path) :
    (w.move src dst).proc = { w.proc with exe := renameExe src dst w.proc.exe } := rfl

/-- A rename of two files the program does not run from leaves the process as it is. -/
theorem proc_move {src dst : Path} (hs : w.proc.exe ≠ some src) (hd : w.proc.exe ≠ some dst) :
    (w.move src dst).proc = w.proc := by
  rw [proc_move_eq, renameExe, if_neg hs, unlinkExe, if_neg hd]

/-- A synced file has its content, which is durable from now on. -/
theorem entry_syncFile_self (p : Path) :
    (w.syncFile p).entry p = (w.entry p).map fun e => (e.1, true) := by
  simp [syncFile]

/-- The sync of a file leaves the entry of every other file as it is. -/
theorem entry_syncFile_ne {p q : Path} (h : q ≠ p) : (w.syncFile p).entry q = w.entry q := by
  simp [syncFile, h]

/-- The sync of a file changes nothing about what a power cut may leave of another one. -/
theorem disk_syncFile_ne {p q : Path} (h : q ≠ p) : (w.syncFile p).disk q = w.disk q := by
  simp [disk, syncFile, h]

/-- The sync of a directory changes no entry. It only takes possibilities away from a power cut. -/
@[simp] theorem entry_syncDir (d q : Path) : (w.syncDir d).entry q = w.entry q := rfl

/-- What a power cut may leave after the sync of a directory, it might have left before. -/
theorem disk_syncDir_subset (d q : Path) : (w.syncDir d).disk q ⊆ w.disk q := by
  refine List.cons_subset_cons _ ?_
  show (if d ≠ "" ∧ dirName (parentPath q) = dirName d then [] else w.older q) ⊆ w.older q
  split
  · exact List.nil_subset _
  · exact List.Subset.refl _

/-- The content of a file, read from its entry. -/
theorem files_eq (w : World β) (p : Path) : w.files p = (w.entry p).map Prod.fst := rfl

/-- A file with an image is an installed image in the sense of `World.image`. -/
theorem image_of_files {p : Path} {b : β} (h : w.files p = some (.image b)) :
    w.image p = some b := by
  rw [image, h]
  rfl

/-- The converse: where `World.image` finds an image, the file has it as its content. -/
theorem files_of_image {p : Path} {b : β} (h : w.image p = some b) :
    w.files p = some (.image b) := by
  rw [image] at h
  cases hf : w.files p with
  | none => simp [hf] at h
  | some content =>
    cases content with
    | image b' => simpa [hf, Content.image?] using h
    | json j => simp [hf, Content.image?] at h
    | raw s => simp [hf, Content.image?] at h

/-- Where two worlds have the same entry, a reader finds the same content. -/
theorem files_of_entry {w' : World β} {p : Path} (h : w'.entry p = w.entry p) :
    w'.files p = w.files p := by
  rw [files_eq, files_eq, h]

/-- A file that is set has the content it was set to. -/
theorem files_setFile_self (p : Path) (v : Option (Content β)) :
    (w.setFile p v).files p = v := by
  rw [files_eq, setFile, entry_push_self]
  cases v <;> rfl

/-- A world that is made of files has these files. -/
@[simp] theorem files_ofFiles (f : Files β) (proc : Process) :
    (ofFiles f proc).files = f := by
  funext p
  show ((f p).map fun c => (c, true)).map Prod.fst = f p
  cases f p <;> rfl

/-- A world that is made of files has them on the disk, and nothing else can be left by a power
cut. -/
theorem disk_ofFiles (f : Files β) (proc : Process) (p : Path) :
    (ofFiles f proc).disk p = [(f p).map fun c => (c, true)] := rfl

/-- Whenever the power is cut, `content` is what is found at `p` afterwards. -/
def Durable (w : World β) (p : Path) (content : Content β) : Prop :=
  ∀ e ∈ w.disk p, e = some (content, true)

/-- A file with a durable content has this content, before a power cut and after it. -/
theorem Durable.files {p : Path} {content : Content β} (h : w.Durable p content) :
    w.files p = some content := by
  rw [files_eq, h _ List.mem_cons_self]
  rfl

/-! ### Renames -/

/-- On the way from `w` to `w'` the file `p` was renamed to `q`. -/
def RenamedSince (w w' : World β) (p q : Path) : Prop :=
  ∃ h, w'.renamed = h ++ w.renamed ∧ (p, q) ∈ h

/-- The renames between two worlds are those that the later one has recorded in front. With this a
proof looks at one list only. -/
theorem renamedSince_iff {w' : World β} {l : List (Path × Path)}
    (hl : w'.renamed = l ++ w.renamed) {p q : Path} : RenamedSince w w' p q ↔ (p, q) ∈ l := by
  refine ⟨fun ⟨h, hh, hmem⟩ => ?_, fun hmem => ⟨l, hl, hmem⟩⟩
  rwa [List.append_cancel_right (hl.symm.trans hh)]

/-- From a world without renames, every rename of the later one has come since. -/
theorem renamedSince_of_nil {w' : World β} (h : w.renamed = []) {p q : Path} :
    RenamedSince w w' p q ↔ (p, q) ∈ w'.renamed :=
  renamedSince_iff (by rw [h, List.append_nil])

/-- Nothing is renamed between a world and itself. -/
theorem not_renamedSince_self {p q : Path} : ¬ RenamedSince w w p q := by
  simp [renamedSince_iff (l := []) rfl]

/-! ### Scratch files -/

/-- From `w` to `w'` only the files of `X` were written, and renamed only among themselves. -/
structure Scratch (X : List Path) (w w' : World β) : Prop where
  entry : ∀ q, q ∉ X → w'.entry q = w.entry q
  disk : ∀ q, q ∉ X → w'.disk q ⊆ w.disk q
  renamed : ∃ h, w'.renamed = h ++ w.renamed ∧ ∀ r ∈ h, r.1 ∈ X ∧ r.2 ∈ X
  shared : w'.proc = { w.proc with exe := w'.proc.exe }
  exe : (∀ p ∈ X, w.proc.exe ≠ some p) → w'.proc.exe = w.proc.exe

namespace Scratch

variable {X Y : List Path} {w w' w'' : World β}

/-- Nothing has been written on the way of no steps. -/
theorem refl (X : List Path) (w : World β) : Scratch X w w :=
  ⟨fun _ _ => rfl, fun _ _ => List.Subset.refl _, ⟨[], rfl, by simp⟩, rfl, fun _ => rfl⟩

/-- Two ways that write only files of `X` are one such way. -/
theorem trans (h : Scratch X w w') (h' : Scratch X w' w'') : Scratch X w w'' where
  entry q hq := (h'.entry q hq).trans (h.entry q hq)
  disk q hq := List.Subset.trans (h'.disk q hq) (h.disk q hq)
  renamed := by
    obtain ⟨l, hl, hlX⟩ := h.renamed
    obtain ⟨l', hl', hlX'⟩ := h'.renamed
    refine ⟨l' ++ l, by rw [hl', hl, List.append_assoc], fun r hr => ?_⟩
    rcases List.mem_append.mp hr with hr | hr
    · exact hlX' r hr
    · exact hlX r hr
  shared := by rw [h'.shared, h.shared]
  exe hX := by
    have hp := h.exe hX
    exact (h'.exe (by rw [hp]; exact hX)).trans hp

/-- More files may be written on the same way. -/
theorem mono (h : Scratch X w w') (hXY : X ⊆ Y) : Scratch Y w w' where
  entry q hq := h.entry q fun hx => hq (hXY hx)
  disk q hq := h.disk q fun hx => hq (hXY hx)
  renamed := by
    obtain ⟨l, hl, hlX⟩ := h.renamed
    exact ⟨l, hl, fun r hr => ⟨hXY (hlX r hr).1, hXY (hlX r hr).2⟩⟩
  shared := h.shared
  exe hY := h.exe fun p hp => hY p (hXY hp)

/-- The process is the same when its executable is not a scratch file. -/
theorem proc (h : Scratch X w w') (hX : ∀ p ∈ X, w.proc.exe ≠ some p) : w'.proc = w.proc := by
  rw [h.shared, h.exe hX]

/-- A way through scratch files stays in one process: the process has the same number at its end. -/
theorem pid (h : Scratch X w w') : w'.proc.pid = w.proc.pid := by
  rw [h.shared]

/-- A file outside the scratch files reads as before. -/
theorem files (h : Scratch X w w') {q : Path} (hq : q ∉ X) : w'.files q = w.files q :=
  files_of_entry (h.entry q hq)

/-- A file outside the scratch files stays durable. -/
theorem durable (h : Scratch X w w') {q : Path} {content : Content β} (hw : w.Durable q content)
    (hq : q ∉ X) : w'.Durable q content := fun e he => hw e (h.disk q hq he)

/-- Where only scratch files were touched, both names of every rename are among them. -/
theorem mem_of_renamedSince (h : Scratch X w w') {p q : Path} (hpq : RenamedSince w w' p q) :
    p ∈ X ∧ q ∈ X := by
  obtain ⟨l, hl, hlX⟩ := h.renamed
  exact hlX _ ((renamedSince_iff hl).mp hpq)

/-- A rename on the way from `w` to `w''` is one on the way to `w'` or from there. -/
theorem renamedSince_trans (h : Scratch X w w') (h' : Scratch Y w' w'') {p q : Path} :
    RenamedSince w w'' p q ↔ RenamedSince w w' p q ∨ RenamedSince w' w'' p q := by
  obtain ⟨l, hl, -⟩ := h.renamed
  obtain ⟨l', hl', -⟩ := h'.renamed
  rw [renamedSince_iff hl, renamedSince_iff hl',
    renamedSince_iff (l := l' ++ l) (by rw [hl', hl, List.append_assoc]), List.mem_append, or_comm]

/-- A file that is set is the only one that is written. -/
theorem setFile (w : World β) (p : Path) (v : Option (Content β)) :
    Scratch [p] w (w.setFile p v) where
  entry q hq := entry_push_ne _ (List.ne_of_not_mem_cons hq)
  disk q hq := by
    rw [World.setFile, disk_push_ne _ (List.ne_of_not_mem_cons hq)]
    exact List.Subset.refl _
  renamed := ⟨[], rfl, by simp⟩
  shared := rfl
  exe _ := rfl

/-- A removal writes the file that is removed, and no other. -/
theorem unlink (w : World β) (p : Path) : Scratch [p] w (w.unlink p) where
  entry q hq := entry_push_ne _ (List.ne_of_not_mem_cons hq)
  disk q hq := by
    rw [disk_unlink, disk_push_ne _ (List.ne_of_not_mem_cons hq)]
    exact List.Subset.refl _
  renamed := ⟨[], rfl, by simp⟩
  shared := rfl
  exe hX := by
    show unlinkExe p w.proc.exe = w.proc.exe
    rw [unlinkExe, if_neg (hX p (List.mem_singleton_self p))]

/-- A rename writes its source and its target, and no third file. -/
theorem move (w : World β) (src dst : Path) : Scratch [src, dst] w (w.move src dst) where
  entry q hq := by
    simp only [List.mem_cons, List.not_mem_nil, or_false, not_or] at hq
    exact entry_move_ne hq.1 hq.2
  disk q hq := by
    simp only [List.mem_cons, List.not_mem_nil, or_false, not_or] at hq
    rw [disk_move_ne hq.1 hq.2]
    exact List.Subset.refl _
  renamed := ⟨[(src, dst)], rfl, by simp⟩
  shared := rfl
  exe hX := by rw [proc_move (hX src (by simp)) (hX dst (by simp))]

/-- A rename by itself is the only one between the worlds before and behind it. -/
theorem renamedSince_move (w : World β) (src dst : Path) {p q : Path} :
    RenamedSince w (w.move src dst) p q ↔ p = src ∧ q = dst := by
  rw [renamedSince_iff (l := [(src, dst)]) rfl]
  simp

/-- A sync writes the file that is synced, in the sense that its entry changes. -/
theorem syncFile (w : World β) (p : Path) : Scratch [p] w (w.syncFile p) where
  entry q hq := entry_syncFile_ne (List.ne_of_not_mem_cons hq)
  disk q hq := by
    rw [disk_syncFile_ne (List.ne_of_not_mem_cons hq)]
    exact List.Subset.refl _
  renamed := ⟨[], rfl, by simp⟩
  shared := rfl
  exe _ := rfl

/-- The sync of a directory writes no file at all. -/
theorem syncDir (w : World β) (d : Path) : Scratch [] w (w.syncDir d) where
  entry q _ := entry_syncDir d q
  disk q _ := disk_syncDir_subset d q
  renamed := ⟨[], rfl, by simp⟩
  shared := rfl
  exe _ := rfl

end Scratch

end World

end ThinrAgent
