import Mathlib.Data.List.DropRight

/-!
# `ThinrAgent.Std.Words`: the words and the lines of a text

`words` are the pieces between blanks, without the empty ones. Two texts put together have the words
of both, unless the first ends in a word that the second goes on with (`words_append`). Then the two
halves become one word (`words_around`). `getlines` are the lines that `std::getline` reads, and
`findText` is the first place of a text in another, with `findText_eq_some` for what stands
before it.
-/

set_option autoImplicit false

namespace ThinrAgent.Text

section Words
variable {α : Type} (blank : α → Bool)

/-- The words of a text: its longest parts without a blank, in their order. -/
def words (text : List α) : List (List α) := (text.splitOnP blank).filter fun w => !w.isEmpty

/-- The last character is part of a word. -/
def EndsInWord (text : List α) : Bool := text.getLast?.any fun c => !blank c

/-- The first character is part of a word. -/
def StartsInWord (text : List α) : Bool := text.head?.any fun c => !blank c

variable {blank}

/-- An empty text has no words, not even an empty one. -/
@[simp] theorem words_nil : words blank [] = [] := rfl

/-- A blank ends a word: the words on its two sides are independent of each other. -/
theorem words_append_cons {c : α} (hc : blank c = true) (xs ys : List α) :
    words blank (xs ++ c :: ys) = words blank xs ++ words blank ys := by
  rw [words, List.splitOnP_append_cons xs ys hc, List.filter_append]
  rfl

/-- A blank in front of a text adds no word. -/
theorem words_cons {c : α} (hc : blank c = true) (xs : List α) :
    words blank (c :: xs) = words blank xs := words_append_cons hc [] xs

/-- A blank behind a text adds no word. -/
theorem words_concat {c : α} (hc : blank c = true) (xs : List α) :
    words blank (xs ++ [c]) = words blank xs := by
  rw [words_append_cons hc, words_nil, List.append_nil]

/-- A nonempty text without blanks is one word, itself. -/
theorem words_of_notBlank {w : List α} (h : ∀ c ∈ w, blank c = false) (hne : w ≠ []) :
    words blank w = [w] := by
  rw [words, List.splitOnP_eq_singleton h, List.filter_singleton, List.isEmpty_eq_false_iff.mpr hne]
  rfl

/-- Two texts that do not share a word at their border have together the words of both. -/
theorem words_append {xs ys : List α}
    (h : EndsInWord blank xs = false ∨ StartsInWord blank ys = false) :
    words blank (xs ++ ys) = words blank xs ++ words blank ys := by
  rcases h with h | h
  · rcases List.eq_nil_or_concat xs with rfl | ⟨xs', c, rfl⟩
    · rfl
    · have hc : blank c = true := by simpa [EndsInWord] using h
      rw [List.concat_eq_append, List.append_assoc, List.singleton_append, words_append_cons hc,
        words_concat hc]
  · cases ys with
    | nil => rw [List.append_nil, words_nil, List.append_nil]
    | cons c ys' =>
      have hc : blank c = true := by simpa [StartsInWord] using h
      rw [words_append_cons hc, words_cons hc]

/-- A word between two texts that do not share it. -/
theorem words_around {xs w ys : List α} (hxs : EndsInWord blank xs = false)
    (hys : StartsInWord blank ys = false) (hw : ∀ c ∈ w, blank c = false) (hne : w ≠ []) :
    words blank (xs ++ (w ++ ys)) = words blank xs ++ w :: words blank ys := by
  rw [words_append (.inl hxs), words_append (.inr hys), words_of_notBlank hw hne]
  rfl

/-- The end of a text that ends in a word. -/
theorem exists_last_word (blank : α → Bool) (xs : List α) : ∃ xs' w, xs = xs' ++ w ∧
    EndsInWord blank xs' = false ∧
    (∀ c ∈ w, blank c = false) ∧ (w = [] ↔ EndsInWord blank xs = false) := by
  refine ⟨xs.rdropWhile fun c => !blank c, xs.rtakeWhile fun c => !blank c,
    List.rdropWhile_append_rtakeWhile.symm, ?_, fun c hc => ?_, ?_⟩
  · rcases List.eq_nil_or_concat (xs.rdropWhile fun c => !blank c) with hnil | ⟨xs', c, hconcat⟩
    · rw [hnil]
      rfl
    · have hlast := List.rdropWhile_last_not (fun c => !blank c) xs (by simp [hconcat])
      simp only [hconcat] at hlast ⊢
      simpa [EndsInWord] using hlast
  · simpa using List.mem_rtakeWhile_imp hc
  · rw [List.rtakeWhile_eq_nil_iff]
    rcases List.eq_nil_or_concat xs with rfl | ⟨xs', c, rfl⟩
    · simp [EndsInWord]
    · simp [EndsInWord]

/-- The front of a text that starts in a word. -/
theorem exists_first_word (blank : α → Bool) (ys : List α) : ∃ w ys', ys = w ++ ys' ∧
    StartsInWord blank ys' = false ∧
    (∀ c ∈ w, blank c = false) ∧ (w = [] ↔ StartsInWord blank ys = false) := by
  refine ⟨ys.takeWhile fun c => !blank c, ys.dropWhile fun c => !blank c,
    List.takeWhile_append_dropWhile.symm, ?_, fun c hc => ?_, ?_⟩
  · cases hdrop : ys.dropWhile fun c => !blank c with
    | nil => rfl
    | cons c ys' =>
      have hne : (ys.dropWhile fun c => !blank c) ≠ [] := by simp [hdrop]
      have hhead := List.head_dropWhile_not (fun c => !blank c) hne
      simp only [hdrop, List.head_cons] at hhead
      simpa [StartsInWord] using hhead
  · simpa using List.mem_takeWhile_imp hc
  · cases ys with
    | nil => simp [StartsInWord]
    | cons c ys' => cases hc : blank c <;> simp [StartsInWord, hc]

/-- A word of a text stands somewhere in it. -/
theorem infix_of_mem_words {w xs : List α} (h : w ∈ words blank xs) : w <:+: xs := by
  -- By induction on the length: a blank or the first word is taken from the front.
  induction hn : xs.length using Nat.strong_induction_on generalizing xs with
  | _ n ih =>
    cases xs with
    | nil => cases h
    | cons c xs' =>
      by_cases hc : blank c = true
      · rw [words_cons hc] at h
        exact (ih xs'.length (by simp [← hn]) h rfl).trans (List.suffix_cons c xs').isInfix
      · obtain ⟨w', ys, heq, hys, hw', hnil⟩ := exists_first_word blank (c :: xs')
        have hne : w' ≠ [] := by
          rw [ne_eq, hnil]
          simp [StartsInWord, hc]
        rw [heq, words_append (.inr hys), words_of_notBlank hw' hne, List.singleton_append,
          List.mem_cons] at h
        rw [heq]
        rcases h with rfl | h
        · exact (List.prefix_append w ys).isInfix
        · have hlength : ys.length < n := by
            have hpos := List.length_pos_iff.mpr hne
            rw [← hn, heq, List.length_append]
            omega
          exact (ih ys.length hlength h rfl).trans (List.suffix_append w' ys).isInfix

end Words

section Lines
variable {α : Type} [DecidableEq α]

/-- The items `std::getline` reads: nothing comes behind a separator at the end. -/
def getlines (separator : α) (text : List α) : List (List α) :=
  let parts := text.splitOn separator
  if parts.getLast? = some [] then parts.dropLast else parts

/-- The text of some lines, each with the separator behind it, the last one too. -/
def unlines (separator : α) (lines : List (List α)) : List α :=
  lines.flatMap fun line => line ++ [separator]

/-- Lines that were ended by separators are found again, with an empty piece behind the last one. -/
theorem splitOn_unlines {separator : α} {lines : List (List α)}
    (h : ∀ line ∈ lines, separator ∉ line) :
    (unlines separator lines).splitOn separator = lines ++ [[]] := by
  induction lines with
  | nil => rfl
  | cons line lines ih =>
    rw [List.forall_mem_cons] at h
    have hcons : unlines separator (line :: lines) =
        line ++ separator :: unlines separator lines := by
      simp [unlines]
    rw [hcons, List.splitOn_append_cons_self_of_not_mem h.1, ih h.2]
    rfl

/-- Lines that are written out are read back. -/
theorem getlines_unlines {separator : α} {lines : List (List α)}
    (h : ∀ line ∈ lines, separator ∉ line) :
    getlines separator (unlines separator lines) = lines := by
  rw [getlines, splitOn_unlines h]
  simp

/-- A piece between separators has no separator in it. -/
theorem separator_not_mem_splitOn (separator : α) (text : List α) :
    ∀ part ∈ text.splitOn separator, separator ∉ part := by
  induction text with
  | nil => simp
  | cons c text ih =>
    rw [List.splitOn_cons_eq_if_modifyHead]
    split
    · simpa using ih
    · next hc =>
      obtain ⟨part, parts, hsplit⟩ :=
        List.exists_cons_of_ne_nil (List.splitOn_ne_nil separator text)
      rw [hsplit, List.forall_mem_cons] at ih
      rw [hsplit, List.modifyHead_cons, List.forall_mem_cons]
      refine ⟨?_, ih.2⟩
      rw [List.mem_cons, not_or]
      exact ⟨fun heq => hc (by simp [heq]), ih.1⟩

/-- A line of a text has no separator in it: a separator ends the line. -/
theorem separator_not_mem_getlines (separator : α) (text : List α) :
    ∀ line ∈ getlines separator text, separator ∉ line := by
  intro line hline
  have hpart : line ∈ text.splitOn separator := by
    simp only [getlines] at hline
    split at hline
    · exact (List.dropLast_sublist _).subset hline
    · exact hline
  exact separator_not_mem_splitOn separator text line hpart

end Lines

section Find
variable {α : Type} [DecidableEq α]

/-- `std::string::find`: the first place where the text stands. -/
def findText (text : List α) : List α → Option Nat
  | [] => if text = [] then some 0 else none
  | c :: cs => if text <+: c :: cs then some 0 else (findText text cs).map (· + 1)

/-- A text is not found exactly when it is no part of the other. -/
theorem findText_eq_none {text s : List α} : findText text s = none ↔ ¬text <:+: s := by
  induction s with
  | nil => simp [findText]
  | cons c cs ih =>
    rw [findText, List.infix_cons_iff]
    by_cases htext : text <+: c :: cs
    · simp [htext]
    · simp [htext, ih]

/-- What stands before and behind the first place. -/
theorem findText_eq_some {text s : List α} {pos : Nat} (h : findText text s = some pos) :
    s = s.take pos ++ (text ++ s.drop (pos + text.length)) ∧ (s.take pos).length = pos ∧
      ∀ xs ys, s = xs ++ (text ++ ys) → pos ≤ xs.length := by
  -- The search moves on by one character while the text does not begin here.
  induction s generalizing pos with
  | nil =>
    rw [findText] at h
    split at h
    · next hnil =>
      cases h
      simp [hnil]
    · cases h
  | cons c cs ih =>
    rw [findText] at h
    split at h
    · next htext =>
      cases h
      obtain ⟨rest, hrest⟩ := htext
      refine ⟨?_, rfl, fun _ _ _ => Nat.zero_le _⟩
      rw [← hrest]
      simp
    · next hnot =>
      rw [Option.map_eq_some_iff] at h
      obtain ⟨pos', hpos', rfl⟩ := h
      obtain ⟨heq, hlength, hfirst⟩ := ih hpos'
      refine ⟨?_, ?_, fun xs ys hs => ?_⟩
      · rw [Nat.add_right_comm, List.take_succ_cons, List.drop_succ_cons, List.cons_append, ← heq]
      · rw [List.take_succ_cons, List.length_cons, hlength]
      · cases xs with
        | nil => exact absurd ⟨ys, hs.symm⟩ hnot
        | cons x xs' =>
          rw [List.cons_append, List.cons.injEq] at hs
          rw [List.length_cons]
          exact Nat.succ_le_succ (hfirst xs' ys hs.2)

end Find

end ThinrAgent.Text
