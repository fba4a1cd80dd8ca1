import ThinrAgent.Auth.FormRequest
import ThinrAgent.Std.JsonText

/-!
# `ThinrAgent.Auth.DeviceFlow`: polling for the token of a device

`start_device_flow` and `poll_device_token` of `auth/auth_manager.cpp`. A round of the loop reads
the clock, asks the token endpoint and either returns or sleeps. The model runs the loop over a list
of rounds and records the requests and the sleeps. Without a result the loop goes on behind the
list.
-/

set_option autoImplicit false

namespace ThinrAgent

/-- The texts of the exceptions of the JSON library. -/
structure JsonMessages where
  parseError : String → String
  typeError : Json → String

/-- What a login comes to: a token, or an error with its status and its text. -/
structure AuthResult where
  success : Bool
  error : AuthError
  statusCode : Int
  accessToken : String
  errorDetail : String
  deriving DecidableEq

/-- The result of a request: a response or the text of an exception. -/
abbrev HttpAnswer := Except String HttpResponse

/-- What the server says at the start of a login: the codes, the address the user has to open, and
how often to ask. -/
structure DeviceAuthResponse where
  deviceCode : String := ""
  userCode : String := ""
  verificationUri : String := ""
  expiresIn : Int32 := 0
  interval : Int32 := 0
  deriving DecidableEq

/-- What the start of a login comes to: the response of the server, or an error with its status and
its text. -/
structure DeviceFlowResult where
  success : Bool
  error : AuthError
  statusCode : Int
  response : DeviceAuthResponse := {}
  errorDetail : String := ""
  deriving DecidableEq

/-- What the authorization endpoint grants, with the defaults of the source. -/
def readDeviceAuth (j : Json) : Except JsonError DeviceAuthResponse := do
  let deviceCode ← j.value Json.getString "device_code" ""
  let userCode ← j.value Json.getString "user_code" ""
  let verificationUri ← j.value Json.getString "verification_uri" ""
  let expiresIn ← j.value Json.getInt32 "expires_in" 600
  let interval ← j.value Json.getInt32 "interval" 5
  return { deviceCode, userCode, verificationUri, expiresIn, interval }

/-- `start_device_flow`: ask for a device code. Every response other than 200 is an error, and so is
a text without the fields. -/
def startDeviceFlow (lib : JsonText) (what : JsonMessages) (client : FormRequest → HttpAnswer)
    (callback : Option (String → Bool)) (host : String) (clientId : Bytes) : DeviceFlowResult :=
  let form : FormData := ⟨[(ascii "client_id", clientId)], by simp⟩
  let url := ensureHttps host ++ "/oauth/device/authorize"
  match makeHttpRequestFormWithFallback client callback url "POST" form "" with
  | .error e =>
    { success := false, error := classifyException e, statusCode := 0, errorDetail := e }
  | .ok response =>
    let failure (error : AuthError) (errorDetail : String) : DeviceFlowResult :=
      { success := false, error, statusCode := response.statusCode, errorDetail }
    if !response.success || response.statusCode ≠ 200 then
      failure (mapStatusToError response.statusCode) response.body
    else
      match lib.parse response.body with
      | none => failure .invalidResponse
          ("Device authorization response parse error: " ++ what.parseError response.body)
      | some j =>
        match readDeviceAuth j with
        | .error _ => failure .invalidResponse (what.typeError j)
        | .ok granted =>
          if granted.deviceCode = "" ∨ granted.userCode = "" then
            failure .invalidResponse "Missing device_code or user_code"
          else
            { success := true, error := .none, statusCode := response.statusCode
              response := granted }

/-- What a round of the polling loop reads: the time that has passed, and the client's answers to
the requests of this round. -/
structure PollRound where
  /-- The nanoseconds since the start. -/
  elapsed : Int
  client : FormRequest → HttpAnswer

/-- What the loop does: it asks for the token, or it sleeps. -/
inductive TokenEvent where
  | request (answer : HttpAnswer)
  | sleep (seconds : Int)

/-- What the loop does with an answer: it ends with a result, or it waits some seconds and asks
again. -/
inductive PollVerdict where
  | finish (result : AuthResult)
  | wait (seconds : Int)

/-- The form of a token request with the grant type of the device flow. The fields stand in the
order of the map, which is by name. -/
def deviceTokenForm (clientId deviceCode : Bytes) : FormData where
  fields := [(ascii "client_id", clientId), (ascii "device_code", deviceCode),
    (ascii "grant_type", ascii "urn:ietf:params:oauth:grant-type:device_code")]
  nodup := by
    show [ascii "client_id", ascii "device_code", ascii "grant_type"].Nodup
    decide

section Poll
variable (lib : JsonText) (what : JsonMessages)

/-- A failed result: the kind of the error, the status of the response if there was one, and a text.
It carries no token. -/
def AuthResult.failure (error : AuthError) (statusCode : Int) (errorDetail : String) : AuthResult :=
  { success := false, error, statusCode, accessToken := "", errorDetail }

/-- The branch of a response with the status 200, which is a success only with an access token that
is a string. -/
def acceptToken (response : HttpResponse) : AuthResult :=
  match lib.parse response.body with
  | none => .failure .invalidResponse response.statusCode
      ("Token polling response parse error: " ++ what.parseError response.body)
  | some j =>
    match j.find "access_token" with
    | none => .failure .invalidResponse response.statusCode "Token response missing access_token"
    | some entry =>
      match entry.getString with
      | .ok accessToken =>
        { success := true, error := .none, statusCode := response.statusCode, accessToken,
          errorDetail := "" }
      | .error _ => .failure .invalidResponse response.statusCode (what.typeError entry)

/-- The branch of a response with the status 400: the two errors that ask for another round, and
those that end the poll. -/
def rejectToken (interval : Int32) (response : HttpResponse) : PollVerdict :=
  match lib.parse response.body with
  | none => .finish (.failure .invalidResponse response.statusCode response.body)
  | some j =>
    match j.value Json.getString "error" "" with
    | .error _ => .finish (.failure .invalidResponse response.statusCode response.body)
    | .ok error =>
      if error = "authorization_pending" then .wait interval.toInt
      -- The loop starts again without its own sleep.
      else if error = "slow_down" then .wait 5
      else if error = "access_denied" then
        .finish (.failure .userDenied response.statusCode "User denied the authorization request")
      else if error = "expired_token" then
        .finish (.failure .tokenExpired response.statusCode "Device code expired")
      else .finish (.failure .serverError response.statusCode ("OAuth error: " ++ error))

/-- What the loop makes of an answer: the statuses 200 and 400 have branches of their own, and
everything else ends the poll. -/
def pollVerdict (interval : Int32) : HttpAnswer → PollVerdict
  | .error e => .finish (.failure (classifyException e) 0 e)
  | .ok response =>
    if response.success ∧ response.statusCode = 200 then .finish (acceptToken lib what response)
    else if response.statusCode = 400 then rejectToken lib interval response
    else
      .finish (.failure (mapStatusToError response.statusCode) response.statusCode response.body)

/-- The parameters of a poll, with the defaults that the source declares for the timeout and the
interval. -/
structure PollRequest where
  host : String
  clientId : Bytes
  deviceCode : Bytes
  timeout : Int32 := 300
  interval : Int32 := 5
  /-- `ssl_verification_callback_`. -/
  callback : Option (String → Bool) := none

/-- The answer of the token endpoint in a round. -/
def PollRound.answer (p : PollRequest) (r : PollRound) : HttpAnswer :=
  makeHttpRequestFormWithFallback r.client p.callback (ensureHttps p.host ++ "/oauth/token") "POST"
    (deviceTokenForm p.clientId p.deviceCode) ""

/-- The check of the clock at the head of a round fails: more than the timeout has passed. -/
def PollRound.late (p : PollRequest) (r : PollRound) : Bool := p.timeout.toInt * 10 ^ 9 < r.elapsed

/-- `poll_device_token`: the requests and pauses of its rounds in order, and its result, or none
while the given rounds have not ended it. -/
def pollDeviceToken (p : PollRequest) : List PollRound → List TokenEvent × Option AuthResult
  | [] => ([], none)
  | r :: rs =>
    if r.late p then
      ([], some (.failure .timeout 0
        ("User did not authorize within " ++ toString p.timeout.toInt ++ " seconds")))
    else
      let answer := r.answer p
      match pollVerdict lib what p.interval answer with
      | .finish result => ([.request answer], some result)
      | .wait seconds =>
        let rest := pollDeviceToken p rs
        (.request answer :: .sleep seconds :: rest.1, rest.2)

end Poll

end ThinrAgent
