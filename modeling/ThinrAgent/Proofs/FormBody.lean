import ThinrAgent.Auth.FormRequest

/-!
# `ThinrAgent.Proofs.FormBody`: does a form arrive as it was sent?

The body replaces the spaces of the values, and nothing else. A reader splits it at every `&` and
`=`, takes `+` for a space and `%` with two digits for a byte. It reads the form that was sent
exactly when no name and no value has a byte with such a meaning (`roundTrips_iff`).

The proof counts bytes. Every field has one `=`, so the reader finds at most the bytes of the names
and the values, and less when a `&` splits a field or an escape joins three bytes. All fields must
be found, so neither is the case. Then the pieces are the fields, and a piece is read as its field
only when the name has no `=` and the rest has no `+`.
-/

set_option autoImplicit false

namespace ThinrAgent

open FormUrlencoded

/-- The bytes of one field in the body. -/
def encodeField (field : Bytes × Bytes) : Bytes := field.1 ++ eq :: field.2.map spaceToPlus

/-- The reader finds the form that was sent: under every name the decoded body has what the form
has, for every request with it. -/
def RoundTrips (formData : FormData) : Prop :=
  ∀ (url authorization : String) (verifySsl : Bool) (name : Bytes),
    (decode (formRequest url formData authorization verifySsl).body).lookup name =
      formData.fields.lookup name

/-- No byte of the field has a meaning in the format. -/
structure PlainField (field : Bytes × Bytes) : Prop where
  amp : amp ∉ field.1 ∧ amp ∉ field.2
  eq : eq ∉ field.1
  plus : plus ∉ field.1 ∧ plus ∉ field.2
  escape : HasEscape field.1 = false ∧ HasEscape field.2 = false

section Replace
variable {value : Bytes}

/-- Replacing the spaces changes nothing about the other bytes of a value. -/
theorem mem_map_spaceToPlus_iff {b : UInt8} (hplus : b ≠ plus) (hspace : b ≠ space) :
    b ∈ value.map spaceToPlus ↔ b ∈ value := by
  rw [List.mem_map]
  constructor
  · rintro ⟨c, hc, hcb⟩
    unfold spaceToPlus at hcb
    split at hcb
    · exact absurd hcb.symm hplus
    · rwa [← hcb]
  · intro hb
    exact ⟨b, hb, if_neg hspace⟩

/-- Neither a space nor a plus is a hexadecimal digit, so the replacement does not matter to a
digit. -/
theorem hexValue_spaceToPlus (b : UInt8) : hexValue (spaceToPlus b) = hexValue b := by
  by_cases hb : b = space
  · subst hb
    decide
  · rw [spaceToPlus, if_neg hb]

/-- The replacement makes no escape and breaks none. -/
theorem escapedByte_spaceToPlus (b high low : UInt8) :
    escapedByte (spaceToPlus b) (spaceToPlus high) (spaceToPlus low) = escapedByte b high low := by
  have hpercent : spaceToPlus b = percent ↔ b = percent := by
    unfold spaceToPlus
    split
    · next hb => subst hb; decide
    · rfl
  simp only [escapedByte, hpercent, hexValue_spaceToPlus]

/-- The replacement of spaces by pluses neither makes an escape nor destroys one. -/
theorem hasEscape_map_spaceToPlus (value : Bytes) :
    HasEscape (value.map spaceToPlus) = HasEscape value := by
  fun_induction HasEscape value with
  | case1 b high low rest ih =>
    rw [List.map_cons, List.map_cons, List.map_cons] at *
    rw [HasEscape, escapedByte_spaceToPlus, ih]
  | case2 value hshort =>
    rcases value with _ | ⟨b, _ | ⟨high, _ | ⟨low, rest⟩⟩⟩
    · rfl
    · rfl
    · rfl
    · exact absurd rfl (hshort b high low rest)

/-- In a value without a plus the replacement of spaces is undone by the decoder. -/
theorem map_plusToSpace_spaceToPlus (h : plus ∉ value) :
    (value.map spaceToPlus).map plusToSpace = value := by
  rw [List.map_map]
  calc value.map (plusToSpace ∘ spaceToPlus) = value.map fun b => b := by
        refine List.map_congr_left fun b hb => ?_
        have hne : b ≠ plus := fun heq => h (heq ▸ hb)
        by_cases hspace : b = space
        · subst hspace
          decide
        · rw [Function.comp_apply, spaceToPlus, if_neg hspace, plusToSpace, if_neg hne]
    _ = value := List.map_id' value

/-- What is read has no plus that is not from an escape. -/
theorem plus_notMem_unescape (h : HasEscape value = false) : plus ∉ unescape value := by
  rw [unescape_of_not_hasEscape h, List.mem_map]
  rintro ⟨b, -, hb⟩
  unfold plusToSpace at hb
  split at hb
  · exact absurd hb (by decide)
  · next hne => exact hne hb

end Replace

/-- The body is the fields with a `&` between them. -/
theorem formBodyLoop_eq (fields : List (Bytes × Bytes)) (body : Bytes) :
    decode (formBodyLoop fields body false) =
      decode body ++ fields.flatMap fun field => decode (encodeField field) := by
  induction fields generalizing body with
  | nil => rw [formBodyLoop, List.flatMap_nil, List.append_nil]
  | cons field fields ih =>
    obtain ⟨key, value⟩ := field
    have hstep : formBodyLoop ((key, value) :: fields) body false =
        formBodyLoop fields (body ++ amp :: encodeField (key, value)) false := by
      rw [formBodyLoop, if_neg Bool.false_ne_true, List.append_assoc]
      rfl
    rw [hstep, ih, decode_append, List.flatMap_cons, List.append_assoc]

/-- A reader splits the body at the separators of the fields first, so it reads each field for
itself. -/
theorem decode_body (formData : FormData) (url authorization : String) (verifySsl : Bool) :
    decode (formRequest url formData authorization verifySsl).body =
      formData.fields.flatMap fun field => decode (encodeField field) := by
  show decode (formBodyLoop formData.fields [] true) = _
  cases formData.fields with
  | nil => rfl
  | cons field fields =>
    obtain ⟨key, value⟩ := field
    have hstep : formBodyLoop ((key, value) :: fields) [] true =
        formBodyLoop fields (encodeField (key, value)) false := by
      rw [formBodyLoop, if_pos rfl, List.nil_append]
      rfl
    rw [hstep, formBodyLoop_eq, List.flatMap_cons]

section Field
variable {field : Bytes × Bytes}

/-- A field is sent with one byte more than it has, the `=`. -/
theorem length_encodeField (field : Bytes × Bytes) :
    (encodeField field).length = size field + 1 := by
  simp only [encodeField, size, List.length_append, List.length_cons, List.length_map]
  omega

/-- Every field that is sent has its `=`. -/
theorem eq_mem_encodeField (field : Bytes × Bytes) : eq ∈ encodeField field := by
  simp [encodeField]

/-- The reader finds no more bytes than a field has. -/
theorem sum_size_encodeField_le (field : Bytes × Bytes) :
    ((decode (encodeField field)).map size).sum ≤ size field := by
  have h := sum_size_decode_le (encodeField field)
  rw [if_pos (eq_mem_encodeField field), length_encodeField] at h
  omega

/-- When it finds all of them, the field is one piece without an escape. -/
theorem piece_of_size (h : size field ≤ ((decode (encodeField field)).map size).sum) :
    amp ∉ encodeField field ∧ decode (encodeField field) = [decodePair (encodeField field)] ∧
      HasEscape ((encodeField field).takeWhile (· ≠ eq)) = false ∧
      HasEscape (((encodeField field).dropWhile (· ≠ eq)).drop 1) = false := by
  have hlength := length_encodeField field
  have hamp : amp ∉ encodeField field := by
    intro hmem
    have hlt := sum_size_decode_lt hmem
    rw [if_pos (eq_mem_encodeField field)] at hlt
    omega
  have hpiece := decode_of_not_mem hamp (List.ne_nil_of_mem (eq_mem_encodeField field))
  refine ⟨hamp, hpiece, not_hasEscape_of_size ?_⟩
  rw [hpiece, List.map_singleton, List.sum_singleton] at h
  rw [if_pos (eq_mem_encodeField field)]
  omega

/-- When the name has no `=`, the first one is the one between the name and the value. -/
theorem takeWhile_encodeField (heq : eq ∉ field.1) :
    (encodeField field).takeWhile (· ≠ eq) = field.1 ∧
      ((encodeField field).dropWhile (· ≠ eq)).drop 1 = field.2.map spaceToPlus := by
  have hall : ∀ b ∈ field.1, decide (b ≠ eq) = true :=
    fun b hb => decide_eq_true fun h => heq (h ▸ hb)
  rw [encodeField, List.takeWhile_append_of_pos hall, List.dropWhile_append_of_pos hall,
    List.takeWhile_cons_of_neg (by simp), List.dropWhile_cons_of_neg (by simp), List.append_nil]
  exact ⟨rfl, rfl⟩

/-- A field without special bytes is read back. -/
theorem PlainField.decode_eq (h : PlainField field) : decode (encodeField field) = [field] := by
  have hamp : FormUrlencoded.amp ∉ encodeField field := by
    rw [encodeField, List.mem_append, List.mem_cons, mem_map_spaceToPlus_iff
      (by decide) (by decide)]
    rintro (hname | heq | hvalue)
    · exact h.amp.1 hname
    · exact absurd heq (by decide)
    · exact h.amp.2 hvalue
  obtain ⟨hname, hvalue⟩ := takeWhile_encodeField h.eq
  have hvalueEscape := (hasEscape_map_spaceToPlus field.2).trans h.escape.2
  have hkeep : field.1.map plusToSpace = field.1 := by
    calc field.1.map plusToSpace = field.1.map fun b => b :=
          List.map_congr_left fun b hb => if_neg (ne_of_mem_of_not_mem hb h.plus.1)
      _ = field.1 := List.map_id' field.1
  rw [decode_of_not_mem hamp (List.ne_nil_of_mem (eq_mem_encodeField field)), decodePair, hname,
    hvalue, unescape_of_not_hasEscape h.escape.1, unescape_of_not_hasEscape hvalueEscape, hkeep,
    map_plusToSpace_spaceToPlus h.plus.2]

end Field

/-- A sum that is not less than a bound of its terms has all its terms at their bounds. -/
theorem le_of_sum_le {α : Type} {l : List α} {f g : α → Nat} (hle : ∀ a ∈ l, f a ≤ g a)
    (hsum : (l.map g).sum ≤ (l.map f).sum) : ∀ a ∈ l, g a ≤ f a := by
  induction l with
  | nil => simp
  | cons a l ih =>
    have htail : (l.map f).sum ≤ (l.map g).sum :=
      List.sum_le_sum fun a ha => hle a (List.mem_cons_of_mem _ ha)
    have hhead := hle a List.mem_cons_self
    simp only [List.map_cons, List.sum_cons] at hsum
    rw [List.forall_mem_cons]
    exact ⟨by omega, ih (fun a ha => hle a (List.mem_cons_of_mem _ ha)) (by omega)⟩

/-- All fields of a form have at most the bytes of what is read, when all of them are found. -/
theorem sum_size_le_of_subset {fields found : List (Bytes × Bytes)} (hnodup : fields.Nodup)
    (hsub : fields ⊆ found) : (fields.map size).sum ≤ (found.map size).sum := by
  obtain ⟨l, hperm, hsublist⟩ := hnodup.subperm hsub
  calc (fields.map size).sum = (l.map size).sum := (hperm.map size).symm.sum_eq
    _ ≤ (found.map size).sum := (hsublist.map size).sum_le_sum fun _ _ => Nat.zero_le _

/-- The bytes that are read are counted field by field. -/
theorem sum_size_flatMap (fields : List (Bytes × Bytes)) :
    ((fields.flatMap fun field => decode (encodeField field)).map size).sum =
      (fields.map fun field => ((decode (encodeField field)).map size).sum).sum := by
  induction fields with
  | nil => rfl
  | cons field fields ih =>
    rw [List.flatMap_cons, List.map_append, List.sum_append, ih, List.map_cons, List.sum_cons]

/-- Where the condition holds, every field is found among the pairs of the decoded body. -/
theorem RoundTrips.mem_decode {formData : FormData} (h : RoundTrips formData) :
    formData.fields ⊆ formData.fields.flatMap fun field => decode (encodeField field) := by
  rintro ⟨name, value⟩ hmem
  have hlookup : formData.fields.lookup name = some value := by
    obtain ⟨before, after, hsplit⟩ := List.append_of_mem hmem
    refine List.lookup_eq_some_iff.mpr ⟨before, after, hsplit, fun p hp => ?_⟩
    have hnodup := formData.nodup
    rw [hsplit, List.map_append, List.map_cons] at hnodup
    have hdisjoint := (List.nodup_append.mp hnodup).2.2 p.1 (List.mem_map_of_mem hp) name
      List.mem_cons_self
    rw [bne_iff_ne]
    exact Ne.symm hdisjoint
  have hfound := h "" "" true name
  rw [decode_body, hlookup] at hfound
  obtain ⟨before, after, hsplit, -⟩ := List.lookup_eq_some_iff.mp hfound
  rw [hsplit]
  exact List.mem_append_right before List.mem_cons_self

/-- The pieces of a form that round-trips are its fields. -/
theorem RoundTrips.pieces {formData : FormData} (h : RoundTrips formData) :
    ∀ field ∈ formData.fields, amp ∉ encodeField field ∧
      decode (encodeField field) = [decodePair (encodeField field)] ∧
      HasEscape ((encodeField field).takeWhile (· ≠ eq)) = false ∧
      HasEscape (((encodeField field).dropWhile (· ≠ eq)).drop 1) = false := by
  have hsum := sum_size_le_of_subset (List.Nodup.of_map _ formData.nodup) h.mem_decode
  rw [sum_size_flatMap] at hsum
  have hall := le_of_sum_le (fun field _ => sum_size_encodeField_le field) hsum
  exact fun field hfield => piece_of_size (hall field hfield)

/-- The reader finds the form that was sent exactly when none of the bytes of its fields has a
meaning in the format. The direction from left to right says that each such byte loses or changes a
field. -/
theorem roundTrips_iff (formData : FormData) :
    RoundTrips formData ↔ ∀ field ∈ formData.fields, PlainField field := by
  constructor
  · intro h field hfield
    have hpieces := h.pieces
    -- The field is what is read from the piece of some field.
    obtain ⟨other, hother, hmem⟩ := List.mem_flatMap.mp (h.mem_decode hfield)
    obtain ⟨-, hdecode, hnameEscape, hvalueEscape⟩ := hpieces other hother
    rw [hdecode, List.mem_singleton] at hmem
    have hname : field.1 = unescape ((encodeField other).takeWhile (· ≠ eq)) :=
      congrArg Prod.fst hmem
    have hvalue : field.2 = unescape (((encodeField other).dropWhile (· ≠ eq)).drop 1) :=
      congrArg Prod.snd hmem
    have heq : eq ∉ field.1 := by
      rw [hname, unescape_of_not_hasEscape hnameEscape, List.mem_map]
      rintro ⟨b, hb, hbeq⟩
      have hne : b ≠ eq := by simpa using List.mem_takeWhile_imp hb
      unfold plusToSpace at hbeq
      split at hbeq
      · exact absurd hbeq (by decide)
      · exact hne hbeq
    -- The escapes and the separators are those of its own piece.
    obtain ⟨hamp, -, hnameEscape', hvalueEscape'⟩ := hpieces field hfield
    obtain ⟨htake, hdrop⟩ := takeWhile_encodeField heq
    rw [htake] at hnameEscape'
    rw [hdrop, hasEscape_map_spaceToPlus] at hvalueEscape'
    rw [encodeField, List.mem_append, List.mem_cons,
      mem_map_spaceToPlus_iff (by decide) (by decide), not_or, not_or] at hamp
    exact ⟨⟨hamp.1, hamp.2.2⟩, heq, ⟨hname ▸ plus_notMem_unescape hnameEscape,
      hvalue ▸ plus_notMem_unescape hvalueEscape⟩, hnameEscape', hvalueEscape'⟩
  · intro h url authorization verifySsl name
    have hdecode : (formData.fields.flatMap fun field => decode (encodeField field)) =
        formData.fields.flatMap fun field => [field] :=
      List.flatMap_congr fun field hfield => (h field hfield).decode_eq
    rw [decode_body, hdecode, List.flatMap_singleton']

/-- A plus in a password arrives as a space, so the server compares another password. -/
theorem not_roundTrips_sample : ¬ RoundTrips (oauthPasswordForm (ascii "ana") (ascii "a+b")) := by
  intro h
  have hpassword := h "" "" true (ascii "password")
  revert hpassword
  decide +kernel

end ThinrAgent
