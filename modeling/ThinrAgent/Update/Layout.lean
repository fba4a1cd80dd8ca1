import Std.Data.String.ToNat
import ThinrAgent.Extensions.Updater

/-!
# `ThinrAgent.Update.Layout`: the files of an installation

The update protocol works on eight kinds of files: the installed binary, three names next to
it, two records in the state directory and the temporary files of the two records. `Layout`
is an installation whose binary is none of the others. Then all the names differ
(`path_inj`), and a proof that a step leaves a file alone is a comparison of constructors.
-/

set_option autoImplicit false

namespace ThinrAgent

/-- An installation: the path of the binary and the state directory. The binary is not one
of the records, nor a temporary file of one. -/
structure Layout where
  install : Path
  stateDir : Path
  apart : ∀ file ∈ [stateFile stateDir, revertedFile stateDir],
    install ≠ file ∧ ∀ pid, install ≠ tempPath file pid

/-- The files of the update protocol. A temporary file belongs to a process. -/
inductive UpdateFile where
  | install
  | new
  | prev
  | prevTmp
  | state
  | reverted
  | stateTmp (pid : Nat)
  | revertedTmp (pid : Nat)
  deriving DecidableEq

namespace UpdateFile

/-- A number for each last character of a path. -/
private def tag : UpdateFile → Nat
  | install => 0
  | new => 1
  | prev => 2
  | prevTmp => 3
  | state => 4
  | reverted => 5
  | stateTmp _ => 6
  | revertedTmp _ => 6

/-- The number of the file whose name ends in this character. -/
private def tagOfChar : Option Char → Nat
  | some 'w' => 1
  | some 'v' => 2
  | some 'p' => 3
  | some 'e' => 4
  | some 'd' => 5
  | _ => 6

/-- A name that ends in a digit is the one of a temporary file of a record. -/
private theorem tagOfChar_digit {c : Char} (h : c.isDigit = true) :
    tagOfChar (some c) = 6 := by
  unfold tagOfChar
  split <;> simp_all

end UpdateFile

/-- The names of one directory share a prefix. -/
theorem pathJoin_eq_append (dir : Path) : ∃ pre, ∀ file, pathJoin dir file = pre ++ file := by
  unfold pathJoin
  split
  · exact ⟨"", fun file => (String.empty_append).symm⟩
  · split
    · exact ⟨dir, fun file => rfl⟩
    · exact ⟨dir ++ "/", fun file => rfl⟩

/-- The name of a temporary file ends in a digit of the process's number. -/
theorem lastChar_tempPath (path : Path) (pid : Nat) :
    ∃ c, lastChar (tempPath path pid) = some c ∧ c.isDigit = true := by
  obtain ⟨c, hc, hd⟩ := lastChar_toString_isDigit pid
  have hne : (toString pid).toList ≠ [] := by
    intro h
    rw [lastChar, h] at hc
    cases hc
  refine ⟨c, ?_, hd⟩
  rw [tempPath, lastChar_append _ (by rw [String.toList_append]; simp), lastChar_append _ hne, hc]

/-- A temporary file is not the marker, whose name does not end in a digit. -/
theorem tempPath_ne_stateFile (path : Path) (pid : Nat) (stateDir : Path) :
    tempPath path pid ≠ stateFile stateDir := by
  obtain ⟨c, hc, hdigit⟩ := lastChar_tempPath path pid
  refine ne_of_lastChar ?_
  rw [hc, stateFile, lastChar_pathJoin _ (by decide)]
  rintro ⟨rfl⟩
  exact absurd hdigit (by decide)

/-- Two processes have different temporary files for one path, as the process's number is in the
name. -/
private theorem tempPath_inj {path : Path} {m n : Nat} (h : tempPath path m = tempPath path n) :
    m = n := by
  have hlist := congrArg String.toList h
  simp only [tempPath, String.toList_append, List.append_cancel_left_eq] at hlist
  exact Nat.repr_injective (String.toList_inj.mp hlist)

namespace Layout

variable (L : Layout)

/-- The path of a file of an update: next to the installed binary, or in the state directory. -/
def path : UpdateFile → Path
  | .install => L.install
  | .new => newPath L.install
  | .prev => prevPath L.install
  | .prevTmp => prevTmpPath L.install
  | .state => stateFile L.stateDir
  | .reverted => revertedFile L.stateDir
  | .stateTmp pid => tempPath (stateFile L.stateDir) pid
  | .revertedTmp pid => tempPath (revertedFile L.stateDir) pid

/-- The last character of a name tells which file it is, except for the installed binary, whose name
is free. -/
private theorem tag_path {f : UpdateFile} (hf : f ≠ .install) :
    UpdateFile.tagOfChar (lastChar (L.path f)) = f.tag := by
  have joined {file : String} (h : file.toList ≠ []) :
      lastChar (pathJoin L.stateDir file) = lastChar file := lastChar_pathJoin _ h
  have temp (p : Path) (pid : Nat) : UpdateFile.tagOfChar (lastChar (tempPath p pid)) = 6 := by
    obtain ⟨c, hc, hd⟩ := lastChar_tempPath p pid
    rw [hc, UpdateFile.tagOfChar_digit hd]
  cases f with
  | install => exact absurd rfl hf
  | new => rw [path, newPath, lastChar_append _ (by decide)]; rfl
  | prev => rw [path, prevPath, lastChar_append _ (by decide)]; rfl
  | prevTmp => rw [path, prevTmpPath, lastChar_append _ (by decide)]; rfl
  | state => rw [path, stateFile, joined (by decide)]; rfl
  | reverted => rw [path, revertedFile, joined (by decide)]; rfl
  | stateTmp pid => exact temp _ pid
  | revertedTmp pid => exact temp _ pid

/-- The binary is none of the other files. -/
private theorem install_ne_path {f : UpdateFile} (hf : f ≠ .install) : L.install ≠ L.path f := by
  cases f with
  | install => exact absurd rfl hf
  | new => exact (append_ne_self _ (by decide)).symm
  | prev => exact (append_ne_self _ (by decide)).symm
  | prevTmp =>
    rw [path, prevTmpPath, prevPath, String.append_assoc]
    exact (append_ne_self _ (by decide)).symm
  | state => exact (L.apart _ List.mem_cons_self).1
  | reverted => exact (L.apart _ (List.mem_cons_of_mem _ List.mem_cons_self)).1
  | stateTmp pid => exact (L.apart _ List.mem_cons_self).2 pid
  | revertedTmp pid => exact (L.apart _ (List.mem_cons_of_mem _ List.mem_cons_self)).2 pid

/-- The temporary files of the two records have different names, also for two processes. -/
private theorem stateTmp_ne_revertedTmp (m n : Nat) :
    L.path (.stateTmp m) ≠ L.path (.revertedTmp n) := by
  obtain ⟨pre, hpre⟩ := pathJoin_eq_append L.stateDir
  intro h
  have hlist := congrArg String.toList h
  simp [path, tempPath, stateFile, revertedFile, hpre, String.toList_append,
    UPDATE_STATE_FILE, UPDATE_REVERTED_FILE] at hlist

/-- Different files of an update have different paths. -/
theorem path_injective {f g : UpdateFile} (h : L.path f = L.path g) : f = g := by
  by_cases hf : f = .install
  · subst hf
    by_cases hg : g = .install
    · exact hg.symm
    · exact absurd h (L.install_ne_path hg)
  · by_cases hg : g = .install
    · subst hg
      exact absurd h.symm (L.install_ne_path hf)
    · have htag : f.tag = g.tag := by rw [← L.tag_path hf, ← L.tag_path hg, h]
      cases f <;> cases g <;> first
        | rfl
        | exact absurd rfl hf
        | exact absurd rfl hg
        | (cases htag; done)
        | skip
      case stateTmp.stateTmp m n => rw [tempPath_inj h]
      case stateTmp.revertedTmp m n => exact absurd h (L.stateTmp_ne_revertedTmp m n)
      case revertedTmp.stateTmp m n => exact absurd h.symm (L.stateTmp_ne_revertedTmp n m)
      case revertedTmp.revertedTmp m n => rw [tempPath_inj h]

/-- The path of the backup is not empty, so a marker with it names a backup. -/
theorem path_prev_ne_empty : L.path .prev ≠ "" := by
  intro h
  have hlist := congrArg String.toList h
  simp [path, prevPath] at hlist

/-! The names the code computes. -/

/-- The download of a binary is the file `.new` next to it. -/
theorem newPath_install : newPath (L.path .install) = L.path .new := rfl

/-- The backup of a binary is the file `.prev` next to it. -/
theorem prevPath_install : prevPath (L.path .install) = L.path .prev := rfl

/-- The backup is written to a temporary file first. -/
theorem prevTmpPath_install : prevTmpPath (L.path .install) = L.path .prevTmp := rfl

/-- The marker of a layout is the file `update.state` of its state directory. -/
theorem stateFile_stateDir : stateFile L.stateDir = L.path .state := rfl

/-- The record of the last rollback is in the state directory. -/
theorem revertedFile_stateDir : revertedFile L.stateDir = L.path .reverted := rfl

/-- The marker is written to the temporary file of the process first. -/
theorem tempPath_state (pid : Nat) : tempPath (L.path .state) pid = L.path (.stateTmp pid) := rfl

/-- A binary whose name ends in neither `e`, `d` nor a digit is apart from the records. -/
private theorem apart_of_lastChar {install stateDir : Path} {c : Char}
    (hc : lastChar install = some c) (he : c ≠ 'e') (hd : c ≠ 'd') (hdigit : c.isDigit = false) :
    ∀ file ∈ [stateFile stateDir, revertedFile stateDir],
      install ≠ file ∧ ∀ pid, install ≠ tempPath file pid := by
  intro file hfile
  refine ⟨ne_of_lastChar ?_, fun pid => ne_of_lastChar ?_⟩
  · simp only [List.mem_cons, List.not_mem_nil, or_false] at hfile
    rcases hfile with rfl | rfl
    · rw [hc, stateFile, lastChar_pathJoin _ (by decide)]
      exact fun h => he (Option.some.inj h)
    · rw [hc, revertedFile, lastChar_pathJoin _ (by decide)]
      exact fun h => hd (Option.some.inj h)
  · obtain ⟨d, hd, hdig⟩ := lastChar_tempPath file pid
    rw [hc, hd]
    rintro ⟨rfl⟩
    rw [hdig] at hdigit
    cases hdigit

/-- The system-wide installation: the binary in `/usr/local/bin`, the state in
`/etc/thinr-agent`. -/
def system : Layout where
  install := "/usr/local/bin/thinr-agent"
  stateDir := "/etc/thinr-agent"
  apart := apart_of_lastChar (c := 't') (by decide) (by decide) (by decide) (by decide)

/-- The binary of the system-wide installation with any state directory, as an agent with `--config`
has it. -/
def withStateDir (stateDir : Path) : Layout where
  install := system.install
  stateDir := stateDir
  apart := apart_of_lastChar (c := 't') (by decide) (by decide) (by decide) (by decide)

/-- Two files of an installation have the same path only when they are the same file. -/
@[simp] theorem path_inj {f g : UpdateFile} : L.path f = L.path g ↔ f = g :=
  ⟨L.path_injective, congrArg L.path⟩

end Layout

end ThinrAgent
