import ThinrAgent.Config.ConfigPath
import ThinrAgent.System.Calls

/-!
# `ThinrAgent.Config.Credentials`: the device's credentials

`config_manager::load` and what it calls (`config/config_manager.cpp`). A text field is a string,
and the token is bytes: it is stored in hex, each byte combined with a key. `credentialsOf` is what
`load` does with the parsed file.

`decryptToken_encryptToken` is the round trip of the token.
-/

set_option autoImplicit false

namespace ThinrAgent

open Effects

/-- What a device logs in with, with the values of a file that has none of the fields. -/
structure DeviceCredentials where
  host : String := ""
  deviceId : String := ""
  deviceName : String := ""
  deviceUser : String := ""
  deviceToken : List UInt8 := []
  version : String := ""
  verifySsl : Bool := true
  deriving DecidableEq

namespace DeviceCredentials

/-- `is_valid`: the host, the device, the user and the token are there. -/
def isValid (c : DeviceCredentials) : Bool :=
  c.host ≠ "" && c.deviceId ≠ "" && c.deviceUser ≠ "" && !c.deviceToken.isEmpty

end DeviceCredentials

/-! ### The token -/

/-- The key that the bytes of the token are combined with. -/
def TOKEN_KEY : UInt8 := 0x5A

/-- The value of a hexadecimal digit in either case, and nothing for any other byte. -/
def hexValue (b : UInt8) : Option UInt8 :=
  if 48 ≤ b ∧ b ≤ 57 then some (b - 48)
  else if 97 ≤ b ∧ b ≤ 102 then some (b - 87)
  else if 65 ≤ b ∧ b ≤ 70 then some (b - 55)
  else none

/-- The number the digits at the front of a text write. Without a digit there is none. -/
def hexPrefix : List UInt8 → Option UInt8
  | [] => none
  | b :: rest =>
    match hexValue b with
    | none => none
    | some d =>
      match rest with
      | [] => some d
      | b' :: _ => some (match hexValue b' with | none => d | some d' => 16 * d + d')

/-- The blanks that `std::stoi` skips in front of a number. -/
def isSpace (b : UInt8) : Bool := b = 32 || (9 ≤ b && b ≤ 13)

/-- `static_cast<unsigned char>(std::stoi(text, nullptr, 16))` of at most two bytes: blanks and a
sign may stand in front, and what follows the digits is ignored. -/
def stoiByte (text : List UInt8) : Except Exc UInt8 :=
  let digits := match text.dropWhile isSpace with
    | 43 :: rest => hexPrefix rest
    | 45 :: rest => (hexPrefix rest).map fun n => -n
    | rest => hexPrefix rest
  match digits with
  | some n => .ok n
  | none => .error (.invalidArgument "stoi")

/-- `decrypt_token`, on the bytes of the stored text. -/
def decryptToken : List UInt8 → Except Exc (List UInt8)
  | [] => .ok []
  | [b] => do return [(← stoiByte [b]) ^^^ TOKEN_KEY]
  | b :: b' :: rest => do
    let byte ← stoiByte [b, b']
    return (byte ^^^ TOKEN_KEY) :: (← decryptToken rest)

/-- A byte as two hexadecimal digits in lower case, the higher one first. -/
def hexPair (b : UInt8) : List Char :=
  [Nat.digitChar (b.toNat / 16), Nat.digitChar (b.toNat % 16)]

/-- `encrypt_token`: every byte is combined with the key and written as two hexadecimal digits. -/
def encryptToken (token : List UInt8) : String :=
  String.ofList (token.flatMap fun b => hexPair (b ^^^ TOKEN_KEY))

/-- The byte of an ASCII character, which is its code. -/
def asciiByte (c : Char) : UInt8 := UInt8.ofNat c.toNat

/-- A hexadecimal digit is one byte in UTF-8, the byte of its code. -/
theorem utf8EncodeChar_digitChar : ∀ n < 16,
    String.utf8EncodeChar (Nat.digitChar n) = [asciiByte (Nat.digitChar n)] := by decide

/-- The two digits of a byte are read as the byte. -/
theorem stoiByte_digits : ∀ n < 256,
    stoiByte [asciiByte (Nat.digitChar (n / 16)), asciiByte (Nat.digitChar (n % 16))] =
      .ok (UInt8.ofNat n) := by decide +kernel

/-- The bytes of a stored token are two digits for each byte of the token under the key. -/
theorem utf8_encryptToken (token : List UInt8) : (encryptToken token).toUTF8.data.toList =
    token.flatMap fun b => (hexPair (b ^^^ TOKEN_KEY)).map asciiByte := by
  rw [encryptToken, String.toUTF8, String.toByteArray_ofList, List.utf8Encode,
    List.toList_data_toByteArray, List.flatMap_assoc]
  congr
  funext b
  have hb := (b ^^^ TOKEN_KEY).toNat_lt
  simp only [hexPair, List.flatMap_cons, List.flatMap_nil, List.map_cons, List.map_nil]
  rw [utf8EncodeChar_digitChar _ (by omega), utf8EncodeChar_digitChar _ (by omega)]
  rfl

/-- A token is read back as it was stored. -/
theorem decryptToken_encryptToken (token : List UInt8) :
    decryptToken (encryptToken token).toUTF8.data.toList = .ok token := by
  rw [utf8_encryptToken]
  induction token with
  | nil => rfl
  | cons b token ih =>
    have hbyte : stoiByte ((hexPair (b ^^^ TOKEN_KEY)).map asciiByte) = .ok (b ^^^ TOKEN_KEY) := by
      have h := stoiByte_digits _ (b ^^^ TOKEN_KEY).toNat_lt
      rwa [UInt8.ofNat_toNat] at h
    have hkey : b ^^^ TOKEN_KEY ^^^ TOKEN_KEY = b := by
      rw [UInt8.xor_assoc, UInt8.xor_self, UInt8.xor_zero]
    simp only [hexPair, List.map_cons, List.map_nil] at hbyte
    simp only [List.flatMap_cons, hexPair, List.map_cons, List.map_nil, List.cons_append,
      List.nil_append, decryptToken, hbyte]
    simp only [hexPair, List.map_cons, List.map_nil] at ih
    rw [ih]
    show Except.ok ((b ^^^ TOKEN_KEY ^^^ TOKEN_KEY) :: token) = _
    rw [hkey]

/-! ### The file -/

/-- An access to a value, with the exception it throws. -/
def accessed {α : Type} : Except JsonError α → Except Exc α
  | .ok a => .ok a
  | .error .typeError => .error .typeError

/-- The token that `decrypt_and_load` puts in the configuration: empty where there is none, and an
exception where it is no string of digits. -/
def tokenOf (config : Json) : Except Exc (List UInt8) :=
  match (config.find "device").bind fun device => device.find "token" with
  | none => .ok []
  | some (.str hex) => decryptToken hex.toUTF8.data.toList
  | some _ => .error .typeError

/-- What `load` takes from the parsed file. A field of the wrong type throws, and credentials
without a host, a device, a user or a token are refused at the end. -/
def credentialsOf (configPath : Path) (config : Json) : Except Exc DeviceCredentials := do
  let token ← tokenOf config
  let host ← accessed (config.value Json.getString "host" "")
  let version ← accessed (config.value Json.getString "version" "1.0.0")
  let verifySsl ← accessed (config.value Json.getBool "verify_ssl" true)
  let general : DeviceCredentials := { host, version, verifySsl }
  let credentials ← match config.find "device" with
    | none => .ok general
    | some device => do
      let deviceId ← accessed (device.value Json.getString "id" "")
      let deviceName ← accessed (device.value Json.getString "name" "")
      let deviceUser ← accessed (device.value Json.getString "user" "")
      pure { general with deviceId, deviceName, deviceUser, deviceToken := token }
  if credentials.isValid then return credentials
  else .error (.runtimeError ("Invalid configuration data in: " ++ configPath))

section
variable {β : Type}

/-- What `load` takes from a file's text: a text that does not parse is an exception of its own. -/
def Content.credentials (content : Content β) (configPath : Path) :
    Except Exc DeviceCredentials :=
  match content.parse with
  | none => .error .parseError
  | some config => credentialsOf configPath config

/-- `config_manager::load`: the credentials in the file. A missing file, a text that does not parse
and credentials that are not valid are exceptions, each with its text. -/
def load (configPath : Path) : SysM β DeviceCredentials := do
  if !(← fsExists configPath) then
    .throw (.runtimeError ("Configuration file does not exist: " ++ configPath))
  else
    match ← readFile configPath with
    | none => .throw (.runtimeError ("Cannot open config file for reading: " ++ configPath))
    | some content =>
      match content.credentials configPath with
      | .ok credentials => return credentials
      | .error e => .throw e

end

end ThinrAgent
