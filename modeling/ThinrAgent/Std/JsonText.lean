import ThinrAgent.Std.Json

/-!
# `ThinrAgent.Std.JsonText`: the text of a flat object

`JsonText` is a library that writes and reads JSON, with one law: the text of an object whose
entries are strings and integers is read as an object with the same entries. The library keeps its
entries in an order of its own, so they come back permuted.

`JsonText.compact` is such a library. It writes the entries in the order of their keys, without
blanks, and with the escapes of `nlohmann::json`.
-/

set_option autoImplicit false

namespace ThinrAgent

namespace Json

/-- A string, or an integer that the library has a type for. -/
def IsScalar : Json → Prop
  | str _ => True
  | int z => -2 ^ 63 ≤ z ∧ z < 2 ^ 64
  | _ => False

/-- An object with one scalar for each of its keys. -/
structure Flat (kvs : List (String × Json)) : Prop where
  nodup : (kvs.map Prod.fst).Nodup
  scalar : ∀ e ∈ kvs, e.2.IsScalar

/-- The order of entries with different keys plays no part for a lookup. -/
theorem lookup_perm {kvs kvs' : List (String × Json)} (hperm : kvs'.Perm kvs)
    (hnodup : (kvs.map Prod.fst).Nodup) (key : String) : kvs'.lookup key = kvs.lookup key := by
  induction hperm with
  | nil => rfl
  | cons e _ ih =>
    rw [List.map_cons, List.nodup_cons] at hnodup
    rw [List.lookup_cons, List.lookup_cons, ih hnodup.2]
  | swap e e' es =>
    rw [List.map_cons, List.map_cons, List.nodup_cons, List.mem_cons, not_or] at hnodup
    rw [List.lookup_cons, List.lookup_cons, List.lookup_cons, List.lookup_cons]
    by_cases he : key = e.1
    · rw [beq_false_of_ne (he ▸ hnodup.1.1), he]
    · rw [beq_false_of_ne he]
  | trans h₁ h₂ ih₁ ih₂ =>
    have hmid := ((h₂.map Prod.fst).nodup_iff).mpr hnodup
    rw [ih₁ hmid, ih₂ hnodup]

end Json

/-- A library for JSON texts. A text that is discarded has no value. -/
structure JsonText where
  dump : Json → String
  parse : String → Option Json
  parse_dump : ∀ kvs, Json.Flat kvs → ∃ kvs', kvs'.Perm kvs ∧
    parse (dump (.obj kvs)) = some (.obj kvs')

namespace Compact

/-- The characters with an escape of one letter, with that letter. -/
def letters : List (Char × Char) :=
  [('"', '"'), ('\\', '\\'), ('\n', 'n'), ('\r', 'r'), ('\t', 't'), ('\x08', 'b'), ('\x0c', 'f')]

/-- The escape of one character in a string. -/
def escape (c : Char) : List Char :=
  match letters.lookup c with
  | some letter => ['\\', letter]
  | none =>
    if c.toNat < 32 then
      ['\\', 'u', '0', '0', (c.toNat / 16).digitChar, (c.toNat % 16).digitChar]
    else [c]

/-- A string with its quotes and its escapes. -/
def quote (s : String) : List Char := '"' :: s.toList.flatMap escape ++ ['"']

/-- A number in decimal, with a sign when it is negative. -/
def ofInt (z : Int) : List Char :=
  if z < 0 then '-' :: Nat.toDigits 10 z.natAbs else Nat.toDigits 10 z.natAbs

/-- The text of a value that is a string or an integer. Other values do not occur in the entries of
a flat object. -/
def scalar : Json → List Char
  | .str s => quote s
  | .int z => ofInt z
  | _ => []

/-- An entry: its key, a colon and its value. -/
def entry (e : String × Json) : List Char := quote e.1 ++ ':' :: scalar e.2

/-- The entries, each with a comma behind it, and the last with the closing brace. -/
def entries : List (String × Json) → List Char
  | [] => ['}']
  | [e] => entry e ++ ['}']
  | e :: es => entry e ++ ',' :: entries es

/-- The text of a flat object, with its entries in the order of their keys. `nlohmann::json` keeps
objects in this order. -/
def dump : Json → String
  | .obj kvs => String.ofList ('{' :: entries (kvs.mergeSort fun a b => decide (a.1 ≤ b.1)))
  | _ => ""

/-- The value of a hexadecimal digit in lower case, as the escapes write it. -/
def hexValue (c : Char) : Nat := if c.isDigit then c.toNat - 48 else c.toNat - 87

/-- The character that the escape with this letter stands for. A letter without an escape of its own
stands for itself. -/
def unescape (letter : Char) : Char :=
  ((letters.find? fun e => e.2 = letter).map Prod.fst).getD letter

/-- The rest of a string, up to its closing quote, and what is behind it. -/
def scanString : List Char → Option (List Char × List Char)
  | '"' :: rest => some ([], rest)
  | '\\' :: 'u' :: a :: b :: c :: d :: rest =>
    let code := 4096 * hexValue a + 256 * hexValue b + 16 * hexValue c + hexValue d
    (scanString rest).map fun r => (Char.ofNat code :: r.1, r.2)
  | '\\' :: letter :: rest => (scanString rest).map fun r => (unescape letter :: r.1, r.2)
  | c :: rest => (scanString rest).map fun r => (c :: r.1, r.2)
  | [] => none

/-- The number that the digits at the front denote, and the text behind them. -/
def scanNat (text : List Char) : Nat × List Char :=
  (Nat.ofDigitChars 10 (text.takeWhile Char.isDigit) 0, text.dropWhile Char.isDigit)

/-- A string or an integer, and what is behind it. -/
def scanScalar : List Char → Option (Json × List Char)
  | '"' :: rest => (scanString rest).map fun r => (.str (String.ofList r.1), r.2)
  | '-' :: rest => some (.int (-(scanNat rest).1), (scanNat rest).2)
  | text => some (.int (scanNat text).1, (scanNat text).2)

/-- An entry of an object, a key and a scalar with a colon between them, and the text behind it. -/
def scanEntry : List Char → Option ((String × Json) × List Char)
  | '"' :: rest =>
    match scanString rest with
    | some (key, ':' :: rest) =>
      (scanScalar rest).map fun r => ((String.ofList key, r.1), r.2)
    | _ => none
  | _ => none

/-- The entries of an object up to the closing brace, which is the end of the text. The fuel bounds
their number. -/
def scanEntries : Nat → List Char → Option (List (String × Json))
  | 0, _ => none
  | fuel + 1, text =>
    match scanEntry text with
    | some (e, ',' :: rest) => (scanEntries fuel rest).map (e :: ·)
    | some (e, ['}']) => some [e]
    | _ => none

/-- The value of a text: an object without entries, or one with them. Blanks are not skipped, since
`dump` writes none. -/
def parse (text : String) : Option Json :=
  match text.toList with
  | ['{', '}'] => some (.obj [])
  | '{' :: rest => (scanEntries rest.length rest).map .obj
  | _ => none

/-- A digit that is written is read as its value. -/
theorem hexValue_digitChar : ∀ d, d < 16 → hexValue d.digitChar = d := by decide

/-- The escapes with a letter are read as the characters they are written for, and none of them is
the one of a code. -/
theorem letters_spec : ∀ e ∈ letters, e.2 ≠ 'u' ∧ unescape e.2 = e.1 := by decide

/-- A character is read back from its escape. -/
theorem scanString_escape (c : Char) (rest : List Char) :
    scanString (escape c ++ rest) = (scanString rest).map fun r => (c :: r.1, r.2) := by
  rw [escape]
  -- A letter for the characters that have one, the code point for the other control characters,
  -- and the character itself for the rest.
  cases hletter : letters.lookup c with
  | some letter =>
    obtain ⟨before, after, hsplit, -⟩ := List.lookup_eq_some_iff.mp hletter
    obtain ⟨hu, hback⟩ := letters_spec (c, letter) (by rw [hsplit]; simp)
    show scanString ('\\' :: letter :: rest) = _
    rw [scanString]
    · simp only [hback]
    -- The scanner takes `\u` first, and no letter is a `u`.
    · rintro _ _ _ _ _ rfl
      exact absurd rfl hu
  | none =>
    have hquote : c ≠ '"' := by
      rintro rfl
      exact absurd hletter (by decide)
    have hback : c ≠ '\\' := by
      rintro rfl
      exact absurd hletter (by decide)
    show scanString ((if c.toNat < 32 then _ else _) ++ rest) = _
    split
    · have hcode : 4096 * 0 + 256 * 0 + 16 * (c.toNat / 16) + c.toNat % 16 = c.toNat := by omega
      simp only [List.cons_append, List.nil_append]
      rw [scanString]
      simp only [hexValue_digitChar (c.toNat / 16) (by omega),
        hexValue_digitChar (c.toNat % 16) (by omega), show hexValue '0' = 0 by decide, hcode,
        Char.ofNat_toNat]
    · simp only [List.cons_append, List.nil_append]
      rw [scanString]
      · exact hquote
      · rintro _ _ _ _ _ rfl
        exact absurd rfl hback
      · rintro _ _ rfl
        exact absurd rfl hback

/-- A string is read up to its closing quote, with its escapes undone. -/
theorem scanString_quote (s : String) (rest : List Char) :
    scanString (s.toList.flatMap escape ++ '"' :: rest) = some (s.toList, rest) := by
  induction s.toList with
  | nil => rfl
  | cons c cs ih =>
    rw [List.flatMap_cons, List.append_assoc, scanString_escape, ih, Option.map_some]

/-- The text begins with a character that ends a number, or is empty. -/
def EndsNumber (rest : List Char) : Prop := ∀ c cs, rest = c :: cs → c.isDigit = false

/-- A number is read up to the character behind it that is no digit. -/
theorem scanNat_toDigits (n : Nat) {rest : List Char} (hend : EndsNumber rest) :
    scanNat (Nat.toDigits 10 n ++ rest) = (n, rest) := by
  have hdigits : ∀ c ∈ Nat.toDigits 10 n, c.isDigit = true :=
    fun c hc => Nat.isDigit_of_mem_toDigits (by omega) (by omega) hc
  have htake : rest.takeWhile Char.isDigit = [] := by
    cases rest with
    | nil => rfl
    | cons c cs => rw [List.takeWhile_cons_of_neg (by rw [hend c cs rfl]; decide)]
  have hdrop : rest.dropWhile Char.isDigit = rest := by
    cases rest with
    | nil => rfl
    | cons c cs => rw [List.dropWhile_cons_of_neg (by rw [hend c cs rfl]; decide)]
  rw [scanNat, List.takeWhile_append_of_pos hdigits, List.dropWhile_append_of_pos hdigits, htake,
    hdrop, List.append_nil, Nat.ofDigitChars_ten_toDigits]

/-- A scalar is read back from its text. -/
theorem scanScalar_scalar {j : Json} (hj : j.IsScalar) {rest : List Char}
    (hend : EndsNumber rest) : scanScalar (scalar j ++ rest) = some (j, rest) := by
  cases j with
  | str s =>
    show scanScalar ('"' :: (s.toList.flatMap escape ++ ['"']) ++ rest) = _
    rw [List.cons_append, List.append_assoc, List.singleton_append, scanScalar, scanString_quote,
      Option.map_some, String.ofList_toList]
  | int z =>
    show scanScalar (ofInt z ++ rest) = _
    unfold ofInt
    split
    · have hz : -(z.natAbs : Int) = z := by omega
      rw [List.cons_append, scanScalar, scanNat_toDigits _ hend]
      simp only [hz]
    · have hz : (z.natAbs : Int) = z := by omega
      -- A number begins with a digit, so the scanner does not take it for a string or a sign.
      obtain ⟨d, ds, hds⟩ :=
        List.exists_cons_of_ne_nil (Nat.toDigits_ne_nil (n := z.natAbs) (b := 10))
      have hd : d.isDigit = true :=
        Nat.isDigit_of_mem_toDigits (b := 10) (n := z.natAbs) (by omega) (by omega) (by simp [hds])
      have hscan := scanNat_toDigits z.natAbs hend
      rw [hds, List.cons_append] at hscan ⊢
      unfold scanScalar
      split
      · rename_i h
        rw [(List.cons.inj h).1] at hd
        exact absurd hd (by decide)
      · rename_i h
        rw [(List.cons.inj h).1] at hd
        exact absurd hd (by decide)
      · rw [hscan, hz]
  | _ => exact hj.elim

/-- An entry is read back from its text. -/
theorem scanEntry_entry {e : String × Json} (he : e.2.IsScalar) {rest : List Char}
    (hend : EndsNumber rest) : scanEntry (entry e ++ rest) = some (e, rest) := by
  have htext : entry e ++ rest =
      '"' :: (e.1.toList.flatMap escape ++ '"' :: ':' :: (scalar e.2 ++ rest)) := by
    simp [entry, quote]
  rw [htext, scanEntry, scanString_quote]
  simp only [scanScalar_scalar he hend, Option.map_some, String.ofList_toList]

/-- A character that is no digit ends a number. -/
theorem endsNumber_cons {c : Char} (cs : List Char) (hc : c.isDigit = false) :
    EndsNumber (c :: cs) := by
  intro c' cs' h
  rw [← (List.cons.inj h).1, hc]

/-- All entries are read, whose text ends the object. The induction is on the entries, and the fuel
is at least one for each. -/
theorem scanEntries_entries {kvs : List (String × Json)} (hscalar : ∀ e ∈ kvs, e.2.IsScalar)
    (hne : kvs ≠ []) {fuel : Nat} (hfuel : kvs.length ≤ fuel) :
    scanEntries fuel (entries kvs) = some kvs := by
  induction kvs generalizing fuel with
  | nil => exact absurd rfl hne
  | cons e es ih =>
    obtain ⟨fuel, rfl⟩ : ∃ k, fuel = k + 1 :=
      ⟨fuel - 1, by rw [List.length_cons] at hfuel; omega⟩
    have he := hscalar e List.mem_cons_self
    cases es with
    | nil =>
      rw [entries, scanEntries, scanEntry_entry he (endsNumber_cons _ (by decide))]
      rfl
    | cons e' es =>
      have hless : (e' :: es).length ≤ fuel := by simpa using hfuel
      have hrest := ih (fun e h => hscalar e (List.mem_cons_of_mem _ h))
        (List.cons_ne_nil _ _) hless
      rw [entries, scanEntries, scanEntry_entry he (endsNumber_cons _ (by decide))]
      · show (scanEntries fuel (entries (e' :: es))).map (e :: ·) = _
        rw [hrest, Option.map_some]
      · exact List.cons_ne_nil _ _

/-- Each entry has at least one character, so the length of the text is enough fuel. -/
theorem length_le_entries (kvs : List (String × Json)) : kvs.length ≤ (entries kvs).length := by
  induction kvs with
  | nil => exact Nat.zero_le _
  | cons e es ih =>
    cases es with
    | nil => simp [entries]
    | cons e' es =>
      rw [entries, List.length_append]
      · simp only [List.length_cons] at ih ⊢
        omega
      · exact List.cons_ne_nil _ _

/-- The text of a flat object is read as the same entries in the order of their keys. -/
theorem parse_dump {kvs : List (String × Json)} (hscalar : ∀ e ∈ kvs, e.2.IsScalar) :
    parse (dump (.obj kvs)) = some (.obj (kvs.mergeSort fun a b => decide (a.1 ≤ b.1))) := by
  have hperm := kvs.mergeSort_perm fun a b => decide (a.1 ≤ b.1)
  generalize hsorted : (kvs.mergeSort fun a b => decide (a.1 ≤ b.1)) = sorted at hperm
  have hscalar' : ∀ e ∈ sorted, e.2.IsScalar := fun e he => hscalar e (hperm.mem_iff.mp he)
  rw [dump, hsorted, parse, String.toList_ofList]
  cases sorted with
  | nil => rfl
  | cons e es =>
    have hscan := scanEntries_entries hscalar' (List.cons_ne_nil e es)
      (length_le_entries (e :: es))
    obtain ⟨rest, hrest⟩ : ∃ rest, entries (e :: es) = '"' :: rest := by
      cases es <;> exact ⟨_, rfl⟩
    rw [hrest] at hscan ⊢
    show (scanEntries ('"' :: rest).length ('"' :: rest)).map Json.obj = _
    rw [hscan, Option.map_some]

end Compact

/-- The library that writes the entries in the order of their keys. -/
def JsonText.compact : JsonText where
  dump := Compact.dump
  parse := Compact.parse
  parse_dump := fun kvs h => ⟨_, kvs.mergeSort_perm _, Compact.parse_dump h.scalar⟩

end ThinrAgent
