import ThinrAgent.Auth.DeviceFlow
import ThinrAgent.Std.Base64
import ThinrAgent.Std.Words

/-!
# `ThinrAgent.Auth.JwtPayload`: the claims of a token

`decode_jwt_payload` of `auth/auth_manager.cpp`, and what `install_with_token` of
`cli/command_handler.cpp` reads from it. The base64 filter of OpenSSL and the JSON parser are
parameters.
-/

set_option autoImplicit false

namespace ThinrAgent

/-- `BIO_read` of a whole text through `BIO_f_base64`, without newlines. There is no value when it
fails. -/
structure Base64Bio where
  read : Bytes → Option Bytes
  read_encode : ∀ bytes, read (Base64.encode bytes) = some bytes
  read_foreign : ∀ text : Bytes,
    (∃ b ∈ text, b ≠ Base64.padding ∧ ∀ s, Base64.standard s ≠ b) → read text = none

/-- A filter that decodes the whole input or nothing. -/
def Base64Bio.strict : Base64Bio :=
  ⟨Base64.decode, Base64.decode_encode, fun _ => Base64.decode_eq_none⟩

/-- `.`, which separates the header, the payload and the signature of a token. -/
def dot : UInt8 := 0x2e

/-- The loop that adds `=` to the payload until its length is a multiple of four, one or more where
the payload's length is not. -/
def addPadding (payloadB64 : Bytes) : Bytes :=
  if payloadB64.length % 4 ≠ 0 then addPadding (payloadB64 ++ [Base64.padding]) else payloadB64
termination_by Base64.padLength payloadB64.length
decreasing_by
  simp only [Base64.padLength, List.length_append, List.length_singleton]
  omega

section Payload
variable (bio : Base64Bio) (parse : Bytes → Except String Json)

/-- The result, or the text of the exception. -/
def decodeJwtPayload (jwtToken : Bytes) : Except String Json :=
  match Text.getlines dot jwtToken with
  | [_, payloadB64, _] =>
    match bio.read (addPadding payloadB64) with
    | none => .error "Failed to decode JWT payload"
    | some [] => .error "Failed to decode JWT payload"
    | some payloadJson => parse payloadJson
  | _ => .error "Invalid JWT format"

/-- The host and the user `install_with_token` goes on with, or the line it prints. -/
def tokenTarget (what : JsonMessages) (token : Bytes) : Except String (String × String) :=
  match decodeJwtPayload bio parse token with
  | .error e => .error ("Auto-provisioning failed: " ++ e)
  | .ok jwtPayload =>
    match jwtPayload.find "svr", jwtPayload.find "usr" with
    | some svr, some usr =>
      match svr.getString, usr.getString with
      | .ok host, .ok username => .ok (host, username)
      | .error _, _ => .error ("Auto-provisioning failed: " ++ what.typeError svr)
      | .ok _, .error _ => .error ("Auto-provisioning failed: " ++ what.typeError usr)
    | _, _ => .error "Invalid token: missing 'svr' or 'usr' claim"

end Payload

/-- The loop adds what is missing for whole groups. -/
theorem addPadding_eq (text : Bytes) : addPadding text = Base64.padded text := by
  fun_induction addPadding text with
  | case1 text hlength ih =>
    rw [ih]
    unfold Base64.padded Base64.padLength
    have hcount : (4 - text.length % 4) % 4 =
        (4 - (text ++ [Base64.padding]).length % 4) % 4 + 1 := by
      simp only [List.length_append, List.length_singleton]
      omega
    rw [hcount, List.replicate_succ, List.append_assoc]
    rfl
  | case2 text hlength =>
    rw [ne_eq, not_not] at hlength
    rw [Base64.padded, Base64.padLength, hlength]
    simp

end ThinrAgent
