import Mathlib.Data.List.DropRight

/-!
# `ThinrAgent.Std.Shell`: how a shell passes lists of names through text

A program prints one name a line, the shell captures the output with `$(…)`, and an unquoted
variable is split again. `substitute` is the capture: the NUL characters are dropped, and the
newlines at the end. `fields` is the split by the default `IFS`, which yields no empty field.
`fields_substitute` says what comes out at the other end: names without blanks arrive in order,
each without its NUL characters, and an empty name does not arrive.

Pathname expansion is not part of `fields`: a field with no pattern character expands to itself.
-/

set_option autoImplicit false

namespace ThinrAgent.Shell

/-- A character of the default `IFS`: a space, a tab or a newline. -/
def isBlank (c : Char) : Bool := c = ' ' || c = '\t' || c = '\n'

/-- What a program prints that prints each text on its own line. -/
def printLines (texts : List String) : List Char := texts.flatMap fun text => text.toList ++ ['\n']

/-- A text without its NUL characters, which no variable holds. -/
def dropNul (text : String) : String := .ofList (text.toList.filter (· ≠ '\x00'))

/-- `"$(…)"` of a program with the output `out`. -/
def substitute (out : List Char) : String :=
  .ofList ((out.filter (· ≠ '\x00')).rdropWhile (· = '\n'))

/-- The fields that the shell makes of an unquoted `$text`, where the text has no character of a
pattern. -/
def fields (text : String) : List String :=
  ((text.toList.splitOnP isBlank).filter (· ≠ [])).map String.ofList

/-- The fields of a list of characters, none of them empty. -/
def charFields (cs : List Char) : List (List Char) := (cs.splitOnP isBlank).filter (· ≠ [])

/-- A blank ends a field: the fields on its two sides are independent of each other. -/
theorem charFields_append_cons (xs ys : List Char) {c : Char} (h : isBlank c = true) :
    charFields (xs ++ c :: ys) = charFields xs ++ charFields ys := by
  rw [charFields, List.splitOnP_append_cons xs ys h, List.filter_append]
  rfl

/-- A text without blanks is one field, or none when it is empty. -/
theorem charFields_of_notBlank {cs : List Char} (h : ∀ c ∈ cs, isBlank c = false) :
    charFields cs = [cs].filter (· ≠ []) := by
  rw [charFields, List.splitOnP_eq_singleton h]

/-- An empty text has no fields, not even an empty one. -/
theorem charFields_nil : charFields [] = [] := charFields_of_notBlank (by simp)

/-- The newlines at the end make no field. -/
theorem charFields_rdropWhile (cs : List Char) :
    charFields (cs.rdropWhile (· = '\n')) = charFields cs := by
  induction cs using List.reverseRecOn with
  | nil => rfl
  | append_singleton cs c ih =>
    by_cases hc : c = '\n'
    · subst hc
      rw [List.rdropWhile_concat_pos _ _ _ (by simp), ih, charFields_append_cons cs [] (by decide),
        charFields_nil, List.append_nil]
    · rw [List.rdropWhile_concat_neg _ _ _ (by simpa using hc)]

/-- Nothing is added when the NUL characters are dropped. -/
theorem mem_dropNul {text : String} {c : Char} (h : c ∈ (dropNul text).toList) :
    c ∈ text.toList := by
  rw [dropNul, String.toList_ofList] at h
  exact List.mem_of_mem_filter h

/-- What a command substitution keeps of a text has no NUL character. -/
theorem nul_notMem_dropNul (text : String) : '\x00' ∉ (dropNul text).toList := by
  simp [dropNul]

/-- A text without NUL characters is kept as it is. -/
theorem dropNul_eq_self {text : String} (h : '\x00' ∉ text.toList) : dropNul text = text := by
  rw [dropNul, List.filter_eq_self.mpr, String.ofList_toList]
  intro c hc
  have hne : c ≠ '\x00' := fun heq => h (heq ▸ hc)
  simpa using hne

/-- The NUL characters can be dropped before the lines are printed or after. -/
theorem filter_printLines (texts : List String) :
    (printLines texts).filter (· ≠ '\x00') = printLines (texts.map dropNul) := by
  induction texts with
  | nil => rfl
  | cons text texts ih =>
    show ((text.toList ++ ['\n']) ++ printLines texts).filter _ =
      ((dropNul text).toList ++ ['\n']) ++ printLines (texts.map dropNul)
    rw [List.filter_append, List.filter_append, ih, dropNul, String.toList_ofList]
    rfl

/-- Each line without blanks is a field, unless it is empty. -/
theorem charFields_printLines {texts : List String}
    (h : ∀ text ∈ texts, ∀ c ∈ text.toList, isBlank c = false) :
    (charFields (printLines texts)).map String.ofList = texts.filter (· ≠ "") := by
  induction texts with
  | nil => rfl
  | cons text texts ih =>
    have htail := ih fun t ht => h t (List.mem_cons_of_mem _ ht)
    have hhead := charFields_of_notBlank (h text List.mem_cons_self)
    have hsplit : printLines (text :: texts) = text.toList ++ '\n' :: printLines texts := by
      show (text.toList ++ ['\n']) ++ printLines texts = _
      rw [List.append_assoc]
      rfl
    rw [hsplit, charFields_append_cons _ _ (by decide), List.map_append, htail, hhead]
    by_cases hempty : text = ""
    · subst hempty
      rfl
    · have hne : text.toList ≠ [] := by simpa using hempty
      rw [List.filter_cons_of_pos (by simpa using hne), List.filter_nil,
        List.filter_cons_of_pos (by simpa using hempty)]
      simp

/-- What the shell makes of names that were printed one a line. -/
theorem fields_substitute {texts : List String}
    (h : ∀ text ∈ texts, ∀ c ∈ text.toList, isBlank c = false) :
    fields (substitute (printLines texts)) = (texts.map dropNul).filter (· ≠ "") := by
  show (charFields (substitute (printLines texts)).toList).map String.ofList = _
  rw [substitute, String.toList_ofList, charFields_rdropWhile, filter_printLines]
  refine charFields_printLines fun text htext c hc => ?_
  obtain ⟨t, ht, rfl⟩ := List.mem_map.mp htext
  exact h t ht c (mem_dropNul hc)

/-- A text with a field is not empty. -/
theorem ne_empty_of_mem_fields {text field : String} (h : field ∈ fields text) : text ≠ "" := by
  rintro rfl
  exact List.not_mem_nil h

/-- The capture of one line is the line. -/
theorem substitute_line {line : List Char} (hnul : '\x00' ∉ line) (hnewline : '\n' ∉ line) :
    substitute (printLines [.ofList line]) = .ofList line := by
  have hfilter : (line ++ ['\n']).filter (· ≠ '\x00') = line ++ ['\n'] := by
    rw [List.filter_eq_self]
    intro c hc
    have hne : c ≠ '\x00' := by
      rintro rfl
      rcases List.mem_append.mp hc with hc | hc
      · exact hnul hc
      · simp at hc
    simpa using hne
  have hkeep : line.rdropWhile (· = '\n') = line := by
    rw [List.rdropWhile_eq_self_iff]
    intro hl
    have hlast : line.getLast hl ≠ '\n' := fun h => hnewline (h ▸ List.getLast_mem hl)
    simpa using hlast
  have hprint : printLines [String.ofList line] = line ++ ['\n'] := by simp [printLines]
  rw [substitute, hprint, hfilter, List.rdropWhile_concat_pos _ _ _ (by simp), hkeep]

/-! ### Where the characters come from -/

/-- A character of the printed lines is a newline or one of a text. -/
theorem mem_printLines {texts : List String} {c : Char} (h : c ∈ printLines texts) :
    c = '\n' ∨ ∃ text ∈ texts, c ∈ text.toList := by
  obtain ⟨text, htext, hc⟩ := List.mem_flatMap.mp h
  rcases List.mem_append.mp hc with hc | hc
  · exact .inr ⟨text, htext, hc⟩
  · exact .inl (List.mem_singleton.mp hc)

/-- The capture of an output has only characters of the output. -/
theorem mem_of_mem_substitute {out : List Char} {c : Char} (h : c ∈ (substitute out).toList) :
    c ∈ out := by
  rw [substitute, String.toList_ofList] at h
  exact List.mem_of_mem_filter ((List.rdropWhile_prefix _ _).subset h)

/-- A piece of a split has characters of the text only. -/
theorem mem_of_mem_splitOnP {cs piece : List Char} {c : Char} (h : piece ∈ cs.splitOnP isBlank)
    (hc : c ∈ piece) : c ∈ cs := by
  induction cs generalizing piece with
  | nil =>
    rw [List.splitOnP_nil, List.mem_singleton] at h
    rwa [h] at hc
  | cons d cs ih =>
    rw [List.splitOnP_cons_eq_if_modifyHead] at h
    split at h
    · rcases List.mem_cons.mp h with rfl | h
      · cases hc
      · exact List.mem_cons_of_mem _ (ih h hc)
    · cases hsplit : cs.splitOnP isBlank with
      | nil => exact absurd hsplit (List.splitOnP_ne_nil _ _)
      | cons first rest =>
        rw [hsplit, List.modifyHead_cons] at h
        rcases List.mem_cons.mp h with rfl | h
        · rcases List.mem_cons.mp hc with rfl | hc
          · exact List.mem_cons_self
          · exact List.mem_cons_of_mem _ (ih (hsplit ▸ List.mem_cons_self) hc)
        · exact List.mem_cons_of_mem _ (ih (hsplit ▸ List.mem_cons_of_mem _ h) hc)

/-- A field has only characters of the text. -/
theorem mem_of_mem_fields {text field : String} {c : Char} (h : field ∈ fields text)
    (hc : c ∈ field.toList) : c ∈ text.toList := by
  obtain ⟨piece, hpiece, rfl⟩ := List.mem_map.mp h
  rw [String.toList_ofList] at hc
  exact mem_of_mem_splitOnP (List.mem_of_mem_filter hpiece) hc

/-- No piece of a split has a character it was split on. -/
theorem notBlank_of_mem_splitOnP {cs piece : List Char} (h : piece ∈ cs.splitOnP isBlank) :
    ∀ c ∈ piece, isBlank c = false := by
  induction cs generalizing piece with
  | nil =>
    rw [List.splitOnP_nil, List.mem_singleton] at h
    simp [h]
  | cons d cs ih =>
    rw [List.splitOnP_cons_eq_if_modifyHead] at h
    split at h
    · rcases List.mem_cons.mp h with rfl | h
      · simp
      · exact ih h
    · rename_i hd
      -- A character that is no blank joins the first piece of the rest.
      obtain ⟨first, rest, hsplit⟩ :=
        List.exists_cons_of_ne_nil (List.splitOnP_ne_nil isBlank cs)
      rw [hsplit, List.modifyHead_cons] at h
      rcases List.mem_cons.mp h with rfl | h
      · intro c hc
        rcases List.mem_cons.mp hc with rfl | hc
        · simpa using hd
        · exact ih (hsplit ▸ List.mem_cons_self) c hc
      · exact ih (hsplit ▸ List.mem_cons_of_mem _ h)

/-- A field has no blank in it, since every blank of the text ends one. -/
theorem notBlank_of_mem_fields {text field : String} (h : field ∈ fields text) :
    ∀ c ∈ field.toList, isBlank c = false := by
  obtain ⟨piece, hpiece, rfl⟩ := List.mem_map.mp h
  rw [String.toList_ofList]
  exact notBlank_of_mem_splitOnP (List.mem_of_mem_filter hpiece)

/-- A field of a capture is one line, and has no NUL character. -/
theorem line_of_mem_fields {out : List Char} {field : String}
    (h : field ∈ fields (substitute out)) : '\x00' ∉ field.toList ∧ '\n' ∉ field.toList := by
  constructor
  · intro hc
    have hmem := mem_of_mem_fields h hc
    rw [substitute, String.toList_ofList] at hmem
    simpa using List.of_mem_filter ((List.rdropWhile_prefix _ _).subset hmem)
  · intro hc
    have hblank := notBlank_of_mem_fields h '\n' hc
    revert hblank
    decide

/-- A field of names that were printed one a line has characters of the names only. -/
theorem exists_name_of_mem_fields {names : List String} {field : String} {c : Char}
    (h : field ∈ fields (substitute (printLines names))) (hc : c ∈ field.toList) :
    c = '\n' ∨ ∃ name ∈ names, c ∈ name.toList :=
  mem_printLines (mem_of_mem_substitute (mem_of_mem_fields h hc))

end ThinrAgent.Shell
