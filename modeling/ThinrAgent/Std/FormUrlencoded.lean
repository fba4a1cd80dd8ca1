import Mathlib.Algebra.BigOperators.Group.List.Basic
import Mathlib.Algebra.Order.BigOperators.Group.List
import Mathlib.Algebra.Order.Ring.Nat
import Mathlib.Data.Fintype.Basic
import Mathlib.Data.List.Infix
import Mathlib.Data.List.Perm.Subperm
import Mathlib.Data.List.TakeWhile

/-!
# `ThinrAgent.Std.FormUrlencoded`: reading `application/x-www-form-urlencoded`

A body is split at every `&`, and a piece at its first `=`. In a name and in a value, `+` is a
space, and `%` with two hexadecimal digits is a byte. A piece without bytes is skipped, and a `%`
that is not an escape stays. `decode` gives the pairs in their order, and a reader looks a name up
in it.

`sum_size_decode_lt` counts bytes. What is read is shorter than the body by the separators, and by
two bytes more for every escape.
-/

set_option autoImplicit false

namespace ThinrAgent

/-- A text as the bytes that are sent. -/
abbrev Bytes := List UInt8

namespace FormUrlencoded

/-- The character `&`, which stands between two fields of a form. -/
def amp : UInt8 := 0x26

/-- The character `=`, which stands between the name and the value of a field. -/
def eq : UInt8 := 0x3d

/-- The character `+`, which stands for a space in a name or a value. -/
def plus : UInt8 := 0x2b

/-- The character `%`, which begins an escape of two hexadecimal digits. -/
def percent : UInt8 := 0x25

/-- The blank, which a form writes as `+`. -/
def space : UInt8 := 0x20

/-- The value of a hexadecimal digit, of either case. -/
def hexValue (b : UInt8) : Option UInt8 :=
  if 0x30 ≤ b ∧ b ≤ 0x39 then some (b - 0x30)
  else if 0x41 ≤ b ∧ b ≤ 0x46 then some (b - 0x37)
  else if 0x61 ≤ b ∧ b ≤ 0x66 then some (b - 0x57)
  else none

/-- The byte that three bytes are an escape of. -/
def escapedByte (b high low : UInt8) : Option UInt8 :=
  if b = percent then
    match hexValue high, hexValue low with
    | some x, some y => some (16 * x + y)
    | _, _ => none
  else none

/-- A `+` stands for a blank, and every other byte for itself. -/
def plusToSpace (b : UInt8) : UInt8 := if b = plus then space else b

/-- The bytes of a name or of a value. -/
def unescape : Bytes → Bytes
  | b :: high :: low :: rest =>
    match escapedByte b high low with
    | some x => x :: unescape rest
    | none => plusToSpace b :: unescape (high :: low :: rest)
  | b :: rest => plusToSpace b :: unescape rest
  | [] => []

/-- Somewhere a `%` has two hexadecimal digits behind it. -/
def HasEscape : Bytes → Bool
  | b :: high :: low :: rest =>
    (escapedByte b high low).isSome || HasEscape (high :: low :: rest)
  | _ => false

/-- The name in front of the first `=` and the value behind it. Without a `=` the value is empty. -/
def decodePair (piece : Bytes) : Bytes × Bytes :=
  (unescape (piece.takeWhile (· ≠ eq)), unescape ((piece.dropWhile (· ≠ eq)).drop 1))

/-- The pairs of a body, in their order. -/
def decode (body : Bytes) : List (Bytes × Bytes) :=
  ((body.splitOn amp).filter (· ≠ [])).map decodePair

/-- In a text without an escape, decoding only turns the pluses into blanks. -/
theorem unescape_of_not_hasEscape {s : Bytes} (h : HasEscape s = false) :
    unescape s = s.map plusToSpace := by
  fun_induction unescape s with
  | case1 b high low rest x hx _ => simp [HasEscape, hx] at h
  | case2 b high low rest hx ih =>
    rw [HasEscape, hx] at h
    rw [ih (by simpa using h)]
    rfl
  | case3 b rest hrest ih =>
    have hrest' : HasEscape rest = false := by
      unfold HasEscape
      split
      · exact absurd rfl (hrest _ _ _)
      · rfl
    rw [ih hrest', List.map_cons]
  | case4 => rfl

/-- An escape becomes one byte, so a text does not grow. -/
theorem length_unescape_le (s : Bytes) : (unescape s).length ≤ s.length := by
  fun_induction unescape s with
  | case1 b high low rest x _ ih => simp only [List.length_cons]; omega
  | case2 b high low rest _ ih => simp only [List.length_cons] at ih ⊢; omega
  | case3 b rest _ ih => simp only [List.length_cons]; omega
  | case4 => exact le_rfl

/-- A text with an escape becomes shorter when it is decoded. -/
theorem length_unescape_lt {s : Bytes} (h : HasEscape s = true) :
    (unescape s).length < s.length := by
  fun_induction unescape s with
  | case1 b high low rest x _ _ =>
    have := length_unescape_le rest
    simp only [List.length_cons]
    omega
  | case2 b high low rest hx ih =>
    rw [HasEscape, hx] at h
    have := ih (by simpa using h)
    simp only [List.length_cons] at this ⊢
    omega
  | case3 b rest hrest _ =>
    unfold HasEscape at h
    split at h
    · next heq => exact absurd (List.cons.inj heq).2 (hrest _ _ _)
    · cases h
  | case4 => cases h

/-- The number of bytes of a pair, the name and the value together. -/
def size (p : Bytes × Bytes) : Nat := p.1.length + p.2.length

/-- The name, the value and the `=` between them are the whole piece. -/
theorem takeWhile_append_dropWhile_length (piece : Bytes) :
    (piece.takeWhile (· ≠ eq)).length + ((piece.dropWhile (· ≠ eq)).drop 1).length +
      (if eq ∈ piece then 1 else 0) = piece.length := by
  induction piece with
  | nil => rfl
  | cons b rest ih =>
    by_cases hb : b = eq
    · simp [hb]
    · have hmem : eq ∈ b :: rest ↔ eq ∈ rest := by simp [Ne.symm hb]
      simp only [List.takeWhile_cons_of_pos (p := (· ≠ eq)) (by simpa using hb),
        List.dropWhile_cons_of_pos (p := (· ≠ eq)) (by simpa using hb), List.length_cons, hmem]
      omega

/-- A pair has at most the bytes of its piece, one less when there is a `=`. -/
theorem size_decodePair_le (piece : Bytes) :
    size (decodePair piece) + (if eq ∈ piece then 1 else 0) ≤ piece.length := by
  have hname := length_unescape_le (piece.takeWhile (· ≠ eq))
  have hvalue := length_unescape_le ((piece.dropWhile (· ≠ eq)).drop 1)
  have hsum := takeWhile_append_dropWhile_length piece
  show (unescape _).length + (unescape _).length + _ ≤ _
  omega

/-- A piece with all its bytes has no escape. -/
theorem not_hasEscape_of_size {piece : Bytes}
    (h : piece.length ≤ size (decodePair piece) + (if eq ∈ piece then 1 else 0)) :
    HasEscape (piece.takeWhile (· ≠ eq)) = false ∧
      HasEscape ((piece.dropWhile (· ≠ eq)).drop 1) = false := by
  have hname := length_unescape_le (piece.takeWhile (· ≠ eq))
  have hvalue := length_unescape_le ((piece.dropWhile (· ≠ eq)).drop 1)
  have hsum := takeWhile_append_dropWhile_length piece
  unfold size decodePair at h
  constructor <;> refine Bool.eq_false_iff.mpr fun hescape => ?_
  · have := length_unescape_lt hescape
    dsimp only at h
    omega
  · have := length_unescape_lt hescape
    dsimp only at h
    omega

/-- An empty body has no pairs, not even an empty one. -/
theorem decode_nil : decode [] = [] := rfl

/-- A separator cuts a body into two that are read for themselves. -/
theorem decode_append (a b : Bytes) : decode (a ++ amp :: b) = decode a ++ decode b := by
  unfold decode
  rw [List.splitOn_append_cons_self, List.filter_append, List.map_append]

/-- Bytes without a separator are one piece, and so the body has one pair. -/
theorem decode_of_not_mem {piece : Bytes} (hamp : amp ∉ piece) (hne : piece ≠ []) :
    decode piece = [decodePair piece] := by
  rw [decode, List.splitOn_eq_singleton hamp, List.filter_cons_of_pos (by simpa using hne)]
  rfl

/-- A body with a `=` has one in its first part or in its second. -/
theorem ite_mem_append_le (a b : Bytes) : (if eq ∈ a ++ amp :: b then 1 else 0) ≤
    (if eq ∈ a then 1 else 0) + (if eq ∈ b then 1 else 0) := by
  have hmem : eq ∈ a ++ amp :: b ↔ eq ∈ a ∨ eq ∈ b := by simp [show eq ≠ amp by decide]
  by_cases ha : eq ∈ a
  · simp [hmem, ha]
  · simp [hmem, ha]

/-- The bytes that are read are those of the body without one of the separators. -/
theorem sum_size_decode_le (body : Bytes) :
    ((decode body).map size).sum + (if eq ∈ body then 1 else 0) ≤ body.length := by
  induction hn : body.length using Nat.strong_induction_on generalizing body with
  | _ n ih =>
    by_cases hamp : amp ∈ body
    · obtain ⟨a, b, rfl⟩ := List.append_of_mem hamp
      rw [List.length_append, List.length_cons] at hn
      have ha := ih a.length (by omega) a rfl
      have hb := ih b.length (by omega) b rfl
      have hle := ite_mem_append_le a b
      rw [decode_append, List.map_append, List.sum_append]
      omega
    · by_cases hne : body = []
      · subst hne
        simp [decode_nil]
      · have := size_decodePair_le body
        rw [decode_of_not_mem hamp hne, List.map_singleton, List.sum_singleton]
        omega

/-- With a `&` in between, another one is lost. -/
theorem sum_size_decode_lt {body : Bytes} (hamp : amp ∈ body) :
    ((decode body).map size).sum + (if eq ∈ body then 1 else 0) < body.length := by
  obtain ⟨a, b, rfl⟩ := List.append_of_mem hamp
  have ha := sum_size_decode_le a
  have hb := sum_size_decode_le b
  have hle := ite_mem_append_le a b
  rw [decode_append, List.map_append, List.sum_append, List.length_append, List.length_cons]
  omega

end FormUrlencoded

end ThinrAgent
