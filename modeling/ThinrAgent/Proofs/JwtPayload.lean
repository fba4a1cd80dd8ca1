import ThinrAgent.Auth.JwtPayload

/-!
# `ThinrAgent.Proofs.JwtPayload`: which tokens decode

A token carries the base64url text of its claims, and `decodeJwtPayload` reads standard base64. The
two agree on the sextets below 62. `decodeJwtPayload_jwtToken` gives the result for every token:
the claims, or a failure when the payload has one of the last two sextets. `decodesClaims_iff` is
the main result.
-/

set_option autoImplicit false

namespace ThinrAgent

/-- A signature: it is not empty and has no dot. A header has no dot either, but may be empty, as
the split of the token keeps an empty item in front of a dot and drops one at the end. -/
structure IsSignature (segment : Bytes) : Prop where
  ne_nil : segment ≠ []
  dot_not_mem : dot ∉ segment

/-- The token of a payload in its three parts, the payload in the alphabet for addresses and without
`=`. -/
def jwtToken (header payload signature : Bytes) : Bytes :=
  header ++ dot :: (Base64.encodeUrl payload ++ dot :: signature)

/-- The payload is decoded as the claims, under every header and signature. -/
def DecodesClaims (bio : Base64Bio) (parse : Bytes → Except String Json) (payload : Bytes)
    (claims : Json) : Prop :=
  ∀ header signature, dot ∉ header → IsSignature signature →
    decodeJwtPayload bio parse (jwtToken header payload signature) = .ok claims

section Decode
variable {bio : Base64Bio} {parse : Bytes → Except String Json}

/-- The payload has no dot, so the dots of a token are the ones between its segments. -/
theorem dot_not_mem_encodeUrl (payload : Bytes) : dot ∉ Base64.encodeUrl payload := by
  intro hmem
  obtain ⟨s, _, hs⟩ := List.mem_map.mp hmem
  exact Base64.url_ne_dot s hs

/-- A token has three items between its dots: header, payload and signature. -/
theorem getlines_jwtToken {header signature : Bytes} (payload : Bytes) (hheader : dot ∉ header)
    (hsignature : IsSignature signature) : Text.getlines dot (jwtToken header payload signature) =
      [header, Base64.encodeUrl payload, signature] := by
  have hparts : (jwtToken header payload signature).splitOn dot =
      [header, Base64.encodeUrl payload, signature] := by
    rw [jwtToken, List.splitOn_append_cons_self, List.splitOn_append_cons_self,
      List.splitOn_eq_singleton hheader,
      List.splitOn_eq_singleton (dot_not_mem_encodeUrl payload),
      List.splitOn_eq_singleton hsignature.dot_not_mem]
    rfl
  rw [Text.getlines, hparts]
  simp [hsignature.ne_nil]

/-- What the filter makes of a base64url text. -/
theorem read_addPadding_encodeUrl (payload : Bytes) :
    bio.read (addPadding (Base64.encodeUrl payload)) =
      if ∀ s ∈ Base64.sextets payload, s.val < 62 then some payload else none := by
  rw [addPadding_eq]
  split
  · next hlow =>
    rw [Base64.encodeUrl_eq_of_lt hlow]
    exact bio.read_encode payload
  · next hhigh =>
    simp only [not_forall, Nat.not_lt] at hhigh
    obtain ⟨s, hs, hge⟩ := hhigh
    obtain ⟨b, hb, hforeign⟩ := Base64.foreign_of_mem_encodeUrl hs hge
    exact bio.read_foreign _ ⟨b, List.mem_append_left _ hb, hforeign⟩

/-- The result for a token: its payload is parsed where no sextet needs one of the last two symbols,
and refused otherwise. -/
theorem decodeJwtPayload_jwtToken {header signature payload : Bytes} (hheader : dot ∉ header)
    (hsignature : IsSignature signature) (hne : payload ≠ []) :
    decodeJwtPayload bio parse (jwtToken header payload signature) =
      if ∀ s ∈ Base64.sextets payload, s.val < 62 then parse payload
      else .error "Failed to decode JWT payload" := by
  rw [decodeJwtPayload, getlines_jwtToken payload hheader hsignature]
  simp only [read_addPadding_encodeUrl]
  obtain ⟨b, rest, rfl⟩ := List.exists_cons_of_ne_nil hne
  by_cases hlow : ∀ s ∈ Base64.sextets (b :: rest), s.val < 62
  · simp only [if_pos hlow]
  · simp only [if_neg hlow]

/-- A payload is decoded, under every header and signature, exactly when none of its sextets is 62
or 63, so when its base64url text has neither `-` nor `_`. -/
theorem decodesClaims_iff (bio : Base64Bio) (parse : Bytes → Except String Json) (payload : Bytes)
    (claims : Json) (hne : payload ≠ []) (hparse : parse payload = .ok claims) :
    DecodesClaims bio parse payload claims ↔ ∀ s ∈ Base64.sextets payload, s.val < 62 := by
  constructor
  · intro hdecodes
    have hsignature : IsSignature [0] := ⟨by decide, by decide⟩
    have htoken := hdecodes [] [0] List.not_mem_nil hsignature
    rw [decodeJwtPayload_jwtToken List.not_mem_nil hsignature hne] at htoken
    by_contra hhigh
    rw [if_neg hhigh] at htoken
    cases htoken
  · intro hlow header signature hheader hsignature
    rw [decodeJwtPayload_jwtToken hheader hsignature hne, if_pos hlow, hparse]

/-- `install_with_token` reads the host and the user of the same tokens. -/
theorem tokenTarget_eq_iff (what : JsonMessages) {header signature payload : Bytes} {claims : Json}
    {host username : String} (hheader : dot ∉ header) (hsignature : IsSignature signature)
    (hne : payload ≠ []) (hparse : parse payload = .ok claims)
    (hsvr : claims.find "svr" = some (.str host))
    (husr : claims.find "usr" = some (.str username)) :
    tokenTarget bio parse what (jwtToken header payload signature) = .ok (host, username) ↔
      ∀ s ∈ Base64.sextets payload, s.val < 62 := by
  rw [tokenTarget, decodeJwtPayload_jwtToken hheader hsignature hne]
  by_cases hlow : ∀ s ∈ Base64.sextets payload, s.val < 62
  · simp only [if_pos hlow, hparse, hsvr, husr]
    exact iff_of_true rfl hlow
  · simp only [if_neg hlow]
    exact iff_of_false (by intro h; cases h) hlow

end Decode

section Sample

/-- A parser for texts in ASCII: the bytes are read as characters, and the exception has the
library's text. -/
def parseAscii (bytes : Bytes) : Except String Json :=
  match JsonText.compact.parse (String.ofList (bytes.map fun b => Char.ofNat b.toNat)) with
  | some j => .ok j
  | none => .error "[json.exception.parse_error.101] parse error"

/-- The payload of a token of the user `usr`. -/
def userPayload (usr : String) : Bytes :=
  ascii ("\x7b\"svr\":\"h\",\"usr\":\"" ++ usr ++ "\"\x7d")

/-- The claims of a user whose name needs none of the last two sextets. -/
theorem decodesClaims_iff_sample :
    DecodesClaims .strict parseAscii (userPayload "abc")
      (.obj [("svr", .str "h"), ("usr", .str "abc")]) :=
  (decodesClaims_iff .strict parseAscii (userPayload "abc")
    (.obj [("svr", .str "h"), ("usr", .str "abc")]) (by decide +kernel) (by rfl)).mpr
      (by decide +kernel)

/-- The text of the user `ab~` has a `-` where the standard alphabet has a `+`. -/
theorem not_decodesClaims_sample :
    parseAscii (userPayload "ab~") =
        .ok (.obj [("svr", .str "h"), ("usr", .str "ab~")]) ∧
      decodeJwtPayload .strict parseAscii
        (jwtToken (ascii "header") (userPayload "ab~") (ascii "signature")) =
        .error "Failed to decode JWT payload" ∧
      ¬DecodesClaims .strict parseAscii (userPayload "ab~")
        (.obj [("svr", .str "h"), ("usr", .str "ab~")]) := by
  have hheader : dot ∉ ascii "header" := by decide +kernel
  have hsignature : IsSignature (ascii "signature") := ⟨by decide +kernel, by decide +kernel⟩
  have hpayload : userPayload "ab~" ≠ [] := by decide +kernel
  have hfails := @decodeJwtPayload_jwtToken .strict parseAscii _ _ _ hheader hsignature hpayload
  rw [if_neg (by decide +kernel)] at hfails
  refine ⟨by rfl, hfails, fun hdecodes => ?_⟩
  rw [hdecodes _ _ hheader hsignature] at hfails
  cases hfails

end Sample

end ThinrAgent
