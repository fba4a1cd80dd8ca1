import ThinrAgent.Std.FormUrlencoded

/-!
# `ThinrAgent.Std.Base64`: the two alphabets of base64

Three bytes are four sextets, and a rest of one or two bytes is two or three sextets. The standard
alphabet and the one for URLs differ in the symbols of the sextets 62 and 63. The standard text is
padded with `=` to whole groups of four symbols.

`decode_encode` is the round trip of the standard text, and `decode_eq_none` says that `decode`
takes no text with a foreign byte. `encodeUrl_eq_of_lt` and `foreign_of_mem_encodeUrl` compare the
alphabets.
-/

set_option autoImplicit false

namespace ThinrAgent.Base64

/-- The sextets of bytes: four for every three bytes, and two or three for one or two bytes at the
end. -/
def sextets : Bytes → List (Fin 64)
  | a :: b :: c :: rest =>
    ⟨a.toNat / 4, by have := a.toNat_lt; omega⟩ ::
      ⟨a.toNat % 4 * 16 + b.toNat / 16, by have := b.toNat_lt; omega⟩ ::
      ⟨b.toNat % 16 * 4 + c.toNat / 64, by have := c.toNat_lt; omega⟩ ::
      ⟨c.toNat % 64, by omega⟩ :: sextets rest
  | [a, b] =>
    [⟨a.toNat / 4, by have := a.toNat_lt; omega⟩,
      ⟨a.toNat % 4 * 16 + b.toNat / 16, by have := b.toNat_lt; omega⟩,
      ⟨b.toNat % 16 * 4, by omega⟩]
  | [a] => [⟨a.toNat / 4, by have := a.toNat_lt; omega⟩, ⟨a.toNat % 4 * 16, by omega⟩]
  | [] => []

/-- The symbol of a sextet, with the symbols of the last two. -/
def symbol (sixtyTwo sixtyThree : UInt8) (s : Fin 64) : UInt8 :=
  if s.val < 26 then UInt8.ofNat (0x41 + s.val)
  else if s.val < 52 then UInt8.ofNat (0x61 + (s.val - 26))
  else if s.val < 62 then UInt8.ofNat (0x30 + (s.val - 52))
  else if s.val = 62 then sixtyTwo
  else sixtyThree

/-- The symbols of the standard alphabet, which ends with `+` and `/`. -/
def standard : Fin 64 → UInt8 := symbol 0x2b 0x2f

/-- The symbols of the alphabet for addresses, which ends with `-` and `_`. -/
def url : Fin 64 → UInt8 := symbol 0x2d 0x5f

/-- The character `=`, which fills the last group of four. -/
def padding : UInt8 := 0x3d

/-- What is missing for whole groups of four. -/
def padLength (n : Nat) : Nat := (4 - n % 4) % 4

/-- The text with `=` up to a whole group of four. -/
def padded (text : Bytes) : Bytes := text ++ List.replicate (padLength text.length) padding

/-- The standard text of some bytes: their sextets in the standard alphabet, filled up with `=` to
groups of four. -/
def encode (bytes : Bytes) : Bytes := padded ((sextets bytes).map standard)

/-- The text of some bytes in the alphabet for addresses, without padding. -/
def encodeUrl (bytes : Bytes) : Bytes := (sextets bytes).map url

/-- The sextet of a symbol of the standard alphabet. -/
def value (b : UInt8) : Option (Fin 64) := (List.finRange 64).find? fun s => standard s = b

/-- The byte over two sextets that `shift` splits. -/
def joined (shift : Nat) (s t : Fin 64) : UInt8 :=
  UInt8.ofNat (s.val * 4 ^ shift % 256 + t.val / 4 ^ (3 - shift))

/-- The bytes of a standard text. The padding stands at the end of the last group only. -/
def decode : Bytes → Option Bytes
  | a :: b :: c :: d :: rest => do
    let s ← value a
    let t ← value b
    if c = padding ∧ d = padding ∧ rest = [] then return [joined 1 s t]
    let u ← value c
    if d = padding ∧ rest = [] then return [joined 1 s t, joined 2 t u]
    let v ← value d
    let bytes ← decode rest
    return joined 1 s t :: joined 2 t u :: joined 3 u v :: bytes
  | [] => some []
  | _ => none

/-- The symbol of a sextet is read as this sextet. -/
@[simp] theorem value_standard (s : Fin 64) : value (standard s) = some s := by
  revert s
  decide +kernel

/-- A byte that is read as a sextet is its symbol. -/
theorem standard_of_value {b : UInt8} {s : Fin 64} (h : value b = some s) : standard s = b := by
  simpa using List.find?_some h

/-- The padding is none of the 64 symbols. -/
theorem standard_ne_padding (s : Fin 64) : standard s ≠ padding := by
  revert s
  decide +kernel

/-- The two alphabets agree on the sextets below 62 and differ only in their last two symbols. -/
theorem url_eq_standard_of_lt {s : Fin 64} (h : s.val < 62) : url s = standard s := by
  revert s
  decide +kernel

/-- The last two symbols of the alphabet for URLs are not in the standard alphabet. -/
theorem url_foreign {s : Fin 64} (h : 62 ≤ s.val) :
    url s ≠ padding ∧ ∀ t, standard t ≠ url s := by
  revert s
  decide +kernel

/-- The dot that separates the segments of a token is no symbol. -/
theorem url_ne_dot (s : Fin 64) : url s ≠ 0x2e := by
  revert s
  decide +kernel

/-- A text for URLs without the last two sextets is the standard text without its padding. -/
theorem encodeUrl_eq_of_lt {bytes : Bytes} (h : ∀ s ∈ sextets bytes, s.val < 62) :
    encodeUrl bytes = (sextets bytes).map standard :=
  List.map_congr_left fun s hs => url_eq_standard_of_lt (h s hs)

/-- A text for URLs with one of the last two sextets has a byte that no standard text has. -/
theorem foreign_of_mem_encodeUrl {bytes : Bytes} {s : Fin 64} (hs : s ∈ sextets bytes)
    (h : 62 ≤ s.val) : ∃ b ∈ encodeUrl bytes, b ≠ padding ∧ ∀ t, standard t ≠ b :=
  ⟨url s, List.mem_map_of_mem hs, url_foreign h⟩

/-- The byte over two sextets is the one they were cut from. -/
theorem joined_eq {shift : Nat} {s t : Fin 64} (b : UInt8)
    (h : s.val * 4 ^ shift % 256 + t.val / 4 ^ (3 - shift) = b.toNat) : joined shift s t = b := by
  rw [joined, h, UInt8.ofNat_toNat]

/-- A group of three bytes in front of a padded text. -/
theorem padded_group (s t u v : UInt8) (text : Bytes) :
    padded (s :: t :: u :: v :: text) = s :: t :: u :: v :: padded text := by
  unfold padded padLength
  have hlength : (s :: t :: u :: v :: text).length % 4 = text.length % 4 := by
    simp only [List.length_cons]
    omega
  rw [hlength]
  rfl

/-- A group of four symbols in front of a text. -/
theorem decode_group (s t u v : Fin 64) (rest : Bytes) :
    decode (standard s :: standard t :: standard u :: standard v :: rest) =
      (decode rest).map fun bytes => joined 1 s t :: joined 2 t u :: joined 3 u v :: bytes := by
  rw [decode]
  simp only [value_standard, standard_ne_padding, false_and, if_false, Option.bind_eq_bind,
    Option.bind_some]
  cases decode rest with
  | none => rfl
  | some bytes => rfl

/-- A last group with three symbols is two bytes. -/
theorem decode_three (s t u : Fin 64) :
    decode [standard s, standard t, standard u, padding] = some [joined 1 s t, joined 2 t u] := by
  rw [decode]
  simp only [value_standard, standard_ne_padding, false_and, if_false, Option.bind_eq_bind,
    Option.bind_some, and_self, if_true]
  rfl

/-- A last group with two symbols is one byte. -/
theorem decode_two (s t : Fin 64) :
    decode [standard s, standard t, padding, padding] = some [joined 1 s t] := by
  rw [decode]
  simp only [value_standard, Option.bind_eq_bind, Option.bind_some, and_self, if_true]
  rfl

/-- The bytes of a standard text come back. -/
theorem decode_encode (bytes : Bytes) : decode (encode bytes) = some bytes := by
  unfold encode
  -- The cases are those of `sextets`: three bytes, and the two ends of a text.
  fun_induction sextets bytes with
  | case1 a b c rest ih =>
    have ha := a.toNat_lt
    have hb := b.toNat_lt
    have hc := c.toNat_lt
    simp only [List.map_cons]
    rw [padded_group, decode_group, ih]
    simp only [Option.map_some, Option.some.injEq, List.cons.injEq, and_true]
    exact ⟨joined_eq a (by simp only; omega), joined_eq b (by simp only; omega),
      joined_eq c (by simp only; omega)⟩
  | case2 a b =>
    have ha := a.toNat_lt
    have hb := b.toNat_lt
    refine (decode_three _ _ _).trans ?_
    simp only [Option.some.injEq, List.cons.injEq, and_true]
    exact ⟨joined_eq a (by simp only; omega), joined_eq b (by simp only; omega)⟩
  | case3 a =>
    have ha := a.toNat_lt
    refine (decode_two _ _).trans ?_
    simp only [Option.some.injEq, List.cons.injEq, and_true]
    exact joined_eq a (by simp only; omega)
  | case4 => rfl

/-- A text that is decoded has no foreign byte. -/
theorem known_of_decode {text bytes : Bytes} (h : decode text = some bytes) :
    ∀ b ∈ text, b = padding ∨ ∃ s, standard s = b := by
  fun_induction decode text generalizing bytes with
  | case1 a b c d rest ih =>
    simp only [Option.bind_eq_bind, Option.bind_eq_some_iff] at h
    obtain ⟨s, hs, t, ht, h⟩ := h
    have ha : a = padding ∨ ∃ s, standard s = a := .inr ⟨s, standard_of_value hs⟩
    have hb : b = padding ∨ ∃ s, standard s = b := .inr ⟨t, standard_of_value ht⟩
    simp only [List.forall_mem_cons]
    refine ⟨ha, hb, ?_⟩
    -- The last group may end in padding. In any other group all four symbols are decoded.
    split at h
    · next hpad =>
      obtain ⟨rfl, rfl, rfl⟩ := hpad
      exact ⟨.inl rfl, .inl rfl, by simp⟩
    · rw [Option.bind_eq_some_iff] at h
      obtain ⟨u, hu, h⟩ := h
      refine ⟨.inr ⟨u, standard_of_value hu⟩, ?_⟩
      split at h
      · next hpad =>
        obtain ⟨rfl, rfl⟩ := hpad
        exact ⟨.inl rfl, by simp⟩
      · simp only [Option.bind_eq_some_iff] at h
        obtain ⟨v, hv, bytes', hrest, _⟩ := h
        exact ⟨.inr ⟨v, standard_of_value hv⟩, ih hrest⟩
  | case2 => simp
  | case3 => cases h

/-- A text with a foreign byte is not taken. -/
theorem decode_eq_none {text : Bytes}
    (h : ∃ b ∈ text, b ≠ padding ∧ ∀ s, standard s ≠ b) : decode text = none := by
  obtain ⟨b, hb, hpad, hforeign⟩ := h
  cases hdecode : decode text with
  | none => rfl
  | some bytes =>
    rcases known_of_decode hdecode b hb with heq | ⟨s, hs⟩
    · exact absurd heq hpad
    · exact absurd hs (hforeign s)

end ThinrAgent.Base64
