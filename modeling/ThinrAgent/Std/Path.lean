import Mathlib.Data.List.Infix

/-!
# `ThinrAgent.Std.Path`: the path functions of `std::filesystem`

A path is the text the program holds. `pathJoin` is `operator/` with a relative right-hand
side, and `parentPath` is `path::parent_path`. The program only ever appends a file name or
a suffix to a path, so the lemmas compare paths by their last character.
-/

set_option autoImplicit false

namespace ThinrAgent

/-- A path is the text that the program holds. -/
abbrev Path := String

/-- `path(dir) / file`, for a relative `file`: a slash is put between them unless the directory is
empty or ends with one. -/
def pathJoin (dir : Path) (file : String) : Path :=
  if dir.toList = [] then file
  else if dir.toList.getLast? = some '/' then dir ++ file
  else dir ++ "/" ++ file

/-- `path(p).parent_path()`: the text before the last component, without the separators
that precede it. The parent of `/a` is `/`, and the parent of a bare name is empty. -/
def parentPath (p : Path) : Path :=
  match p.toList.reverse.dropWhile (· ≠ '/') with
  | [] => ""
  | rest =>
    match rest.dropWhile (· = '/') with
    | [] => "/"
    | dir => String.ofList dir.reverse

/-- The name of a directory without the separators at its end. The empty path is the current
directory. -/
def dirName (d : Path) : Path :=
  match d.toList.reverse.dropWhile (· = '/') with
  | [] => if d = "" then "." else "/"
  | dir => String.ofList dir.reverse

/-- The last character of a path, if it has one. -/
def lastChar (p : Path) : Option Char := p.toList.getLast?

/-- Two paths with different last characters are different paths, which settles most questions about
the names in this project. -/
theorem ne_of_lastChar {p q : Path} (h : lastChar p ≠ lastChar q) : p ≠ q :=
  fun hpq => h (congrArg lastChar hpq)

/-- A nonempty suffix decides what the last character of a path is. -/
theorem lastChar_append (p : Path) {s : String} (hs : s.toList ≠ []) :
    lastChar (p ++ s) = lastChar s := by
  unfold lastChar
  rw [String.toList_append, List.getLast?_append_of_ne_nil _ hs]

/-- The last character of a joined path is the one of the file name. -/
theorem lastChar_pathJoin (dir : Path) {file : String} (h : file.toList ≠ []) :
    lastChar (pathJoin dir file) = lastChar file := by
  unfold pathJoin
  split
  · rfl
  · split <;> exact lastChar_append _ h

/-- A path is not its own extension by a nonempty suffix. -/
theorem append_ne_self (p : Path) {s : String} (hs : s.toList ≠ []) : p ++ s ≠ p := by
  intro h
  have hlist := congrArg String.toList h
  rw [String.toList_append] at hlist
  exact hs (List.append_right_eq_self.mp hlist)

/-- The decimal text of a number ends in a digit. -/
theorem lastChar_toString_isDigit (n : Nat) :
    ∃ c, lastChar (toString n) = some c ∧ c.isDigit = true := by
  have hne : (toString n).toList ≠ [] := by
    show (Nat.repr n).toList ≠ []
    simp [Nat.repr, Nat.toDigits_ne_nil]
  refine ⟨(toString n).toList.getLast hne, List.getLast?_eq_some_getLast hne, ?_⟩
  have hmem : (toString n).toList.getLast hne ∈ Nat.toDigits 10 n := by
    simp [toString, Nat.repr]
  exact Nat.isDigit_of_mem_toDigits (by decide) (by decide) hmem

end ThinrAgent
