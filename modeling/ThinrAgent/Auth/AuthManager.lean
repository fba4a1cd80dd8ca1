import ThinrAgent.Auth.Session

/-!
# `ThinrAgent.Auth.AuthManager`: the requests of a setup

`auth_manager` (`auth/auth_manager.cpp`) as a program of a session. A wrapper sends a request with
verification first. When that fails with an error of the secure connection it asks the callback, and
sends the same request without verification if the callback accepts. How a response is judged is
taken from the modules about single flows.
-/

set_option autoImplicit false

namespace ThinrAgent

open Effects

/-- `auth_manager`: the libraries it uses, and the callback that is asked before a request is
repeated without the verification of certificates. -/
structure AuthManager where
  library : SessionLibrary
  sslVerificationCallback : Option (String → SessionM Bool) := none

/-- What a provisioning request gives: the status of the server, and with a success the credentials
of the device. -/
structure ProvisionResult where
  success : Bool
  statusCode : Int
  credentials : DeviceCredentials := {}

/-- The products of the user, as the server has listed them. -/
structure ProductListResult where
  success : Bool
  statusCode : Int
  products : Json := .null

/-- Whether a product has been created, with the body of the response when it has not. -/
structure ProductCreateResult where
  success : Bool
  statusCode : Int
  errorDetail : String := ""

namespace AuthManager

/-! ### Requests -/

/-- The end of `make_http_request` and of `make_http_request_form`: an answer of any status is a
success, and only a failure of the transport is an exception. -/
def sendRequest (call : HttpCall) : SessionM HttpResponse :=
  .call (SessionOp.http call) fun (answer : HttpAnswer) =>
    match answer with
    | .ok res => return { res with success := true }
    | .error e => .throw (.runtimeError ("HTTP request failed: " ++ e))

/-- `make_http_request`. A method that it does not know throws before anything is sent. -/
def makeHttpRequest (request : JsonRequest) (verifySsl : Bool) : SessionM HttpResponse :=
  if request.method = "GET" ∨ request.method = "POST" ∨ request.method = "DELETE" then
    sendRequest (.json request verifySsl)
  else .throw (.runtimeError ("Unsupported HTTP method: " ++ request.method))

/-- `make_http_request_form`, which knows no method but POST and throws for every other one. -/
def makeHttpRequestForm (url method : String) (formData : FormData) (authorization : String)
    (verifySsl : Bool) : SessionM HttpResponse :=
  if method = "POST" then sendRequest (.form (formRequest url formData authorization verifySsl))
  else .throw (.runtimeError ("Unsupported HTTP method for form data: " ++ method))

/-- The exceptions of a request are answers of the functions that catch them. -/
def attempt (request : SessionM HttpResponse) : SessionM HttpAnswer :=
  (do
    let response ← request
    return Except.ok response).tryCatch fun e => return .error e.what

section
variable (auth : AuthManager)

/-- The body of both wrappers, for a request that depends on `verify_ssl`. -/
def withFallback (request : Bool → SessionM HttpResponse) : SessionM HttpResponse :=
  (request true).tryCatch fun e =>
    if classifyException e.what ≠ .sslError then .throw e
    else
      match auth.sslVerificationCallback with
      | some accepts => do
        if ← accepts e.what then request false
        else
          .throw (.runtimeError
            ("SSL verification failed and insecure connection was not allowed: " ++ e.what))
      | none => .throw e

/-- `make_http_request_with_fallback`: the wrapper around a request with a JSON payload. -/
def makeHttpRequestWithFallback (request : JsonRequest) : SessionM HttpResponse :=
  auth.withFallback (makeHttpRequest request)

/-- `make_http_request_form_with_fallback`: the wrapper around a form. It repeats the body of the
other wrapper in the source, so both are one definition here. -/
def makeHttpRequestFormWithFallback (url method : String) (formData : FormData)
    (authorization : String) : SessionM HttpResponse :=
  auth.withFallback (makeHttpRequestForm url method formData authorization)

/-- A value that has been read, or the exception of the JSON library. -/
def accessOf {α : Type} (j : Json) : Except JsonError α → SessionM α
  | .ok a => return a
  | .error .typeError => .throw (.runtimeError (auth.library.messages.typeError j))

/-- The JSON value of a response. A body that is none throws, with the operation it belongs to in
the text. -/
def parseResponse (response : HttpResponse) (operation : String) : SessionM Json :=
  match auth.library.text.parse response.body with
  | some j => return j
  | none => .throw (.runtimeError (operation ++ " response parse error: " ++
      auth.library.messages.parseError response.body))

/-- `decode_jwt_payload` in a session: the claims of a token, or the exception of the base64 filter
or the parser. -/
def decodeToken (token : String) : SessionM Json :=
  valueOf (decodeJwtPayload auth.library.bio auth.library.parse (utf8 token))

end

/-! ### Login -/

section
variable (auth : AuthManager)

/-- What `oauth_password_flow` makes of the response with the status 200. -/
def passwordToken (response : HttpResponse) : AuthResult :=
  match auth.library.text.parse response.body with
  | none => .failure .invalidResponse response.statusCode
      ("OAuth authentication response parse error: " ++
        auth.library.messages.parseError response.body)
  | some j =>
    match j.find "access_token" with
    | none => .failure .invalidResponse response.statusCode "OAuth response missing access_token"
    | some entry =>
      match entry.getString with
      | .ok accessToken =>
        { success := true, error := .none, statusCode := response.statusCode, accessToken
          errorDetail := "" }
      | .error _ =>
        .failure .invalidResponse response.statusCode (auth.library.messages.typeError entry)

/-- `oauth_password_flow`: the user name and the password are posted, and the answer has a token or
an error. -/
def oauthPasswordFlow (host username password : String) : SessionM AuthResult := do
  let oauthUrl := ensureHttps host ++ "/oauth/token"
  match ← attempt (auth.makeHttpRequestFormWithFallback oauthUrl "POST"
      (oauthPasswordForm (utf8 username) (utf8 password)) "") with
  | .error e => return .failure (classifyException e) 0 e
  | .ok response =>
    if !response.success || response.statusCode ≠ 200 then
      return .failure (mapStatusToError response.statusCode) response.statusCode response.body
    else return auth.passwordToken response

/-- `start_device_flow`. The response is judged as in the model of a single flow, by a client that
has it. -/
def startDeviceFlow (host : String) (clientId : Bytes) : SessionM DeviceFlowResult := do
  let form : FormData := ⟨[(ascii "client_id", clientId)], List.nodup_singleton _⟩
  let deviceAuthUrl := ensureHttps host ++ "/oauth/device/authorize"
  match ← attempt (auth.makeHttpRequestFormWithFallback deviceAuthUrl "POST" form "") with
  | .error e =>
    return { success := false, error := classifyException e, statusCode := 0, errorDetail := e }
  | .ok response =>
    return ThinrAgent.startDeviceFlow auth.library.text auth.library.messages
      (fun _ => .ok response) none host clientId

/-- The loop of `poll_device_token`. The clock is read at the head of each round, so the last
request may begin just before the time is up. -/
def pollDeviceToken (host : String) (clientId deviceCode : Bytes) (timeout interval : Int32) :
    Nat → SessionM AuthResult
  | 0 => unfinished
  | fuel + 1 => do
    let elapsed ← ask .elapsed
    if timeout.toInt * 10 ^ 9 < elapsed then
      return .failure .timeout 0
        ("User did not authorize within " ++ toString timeout.toInt ++ " seconds")
    else
      let answer ← attempt (auth.makeHttpRequestFormWithFallback
        (ensureHttps host ++ "/oauth/token") "POST" (deviceTokenForm clientId deviceCode) "")
      match pollVerdict auth.library.text auth.library.messages interval answer with
      | .finish result => return result
      | .wait seconds => do
        ask (.sleep seconds)
        pollDeviceToken host clientId deviceCode timeout interval fuel

end

/-! ### Devices -/

/-- The characters of generated credentials, in the order of the source. -/
def credentialChars : List Char :=
  "ABCDEFGHIJKLMNOPQRSTUVWXYZabcdefghijklmnopqrstuvwxyz0123456789#-&$@%".toList

/-- The loop of `generate_device_credentials`: so many characters are drawn one after another, each
independently of the others. -/
def drawChars : Nat → List Char → SessionM (List Char)
  | 0, credentials => return credentials
  | n + 1, credentials => do
    let c ← ask (.drawChar credentialChars)
    drawChars n (credentials ++ [c.1])

/-- `generate_device_credentials`: sixteen characters, each drawn at random from
`credentialChars`. -/
def generateDeviceCredentials : SessionM String := do return String.ofList (← drawChars 16 [])

/-- Where the devices of a user are created. -/
def devicesUrl (host username : String) : String :=
  ensureHttps host ++ "/v1/users/" ++ username ++ "/devices"

/-- The description of a new device in a provisioning request. A device without a name is called by
its identifier, and the product is left out where none was chosen. -/
def devicePayload (deviceId credentials deviceName osDescription product : String) : Json :=
  let payload : Json := .obj [("enabled", .bool true), ("type", .str "Generic"),
    ("device", .str deviceId), ("credentials", .str credentials),
    ("name", .str (if deviceName = "" then deviceId else deviceName)),
    ("description", .str osDescription)]
  if product = "" then payload else payload.set "product" (.str product)

/-- The request that creates a device in the account of the token. -/
def provisionRequest (host username accessToken : String) (payload : Json) : JsonRequest where
  url := devicesUrl host username
  method := "POST"
  payload := payload
  authorization := "Bearer " ++ accessToken

/-- The request that deletes a device. It goes to the URL of the device, under the one where devices
are created. -/
def deleteDeviceRequest (host username deviceId accessToken : String) : JsonRequest where
  url := devicesUrl host username ++ "/" ++ deviceId
  method := "DELETE"
  authorization := "Bearer " ++ accessToken

section
variable (auth : AuthManager)

/-- The identifier in the response to a provisioning request, or the one that was sent. -/
def provisionedId (response : Json) (deviceId : String) : Except JsonError String :=
  match response.find "device" with
  | some device => device.getString
  | none => .ok deviceId

/-- `provision_device`: new credentials are generated and sent. What is returned has the identifier
of the response, when it names one, and counts as a success only when the credentials are valid. -/
def provisionDevice (host username deviceId deviceName accessToken product : String) :
    SessionM ProvisionResult := do
  let deviceCredentials ← generateDeviceCredentials
  let description ← ask .osDescription
  let payload := devicePayload deviceId deviceCredentials deviceName description product
  let response ← auth.makeHttpRequestWithFallback
    (provisionRequest host username accessToken payload)
  if !response.success || (response.statusCode ≠ 200 && response.statusCode ≠ 201) then
    return { success := false, statusCode := response.statusCode }
  else
    let jsonResponse ← auth.parseResponse response "Device provisioning"
    let id ← auth.accessOf jsonResponse (provisionedId jsonResponse deviceId)
    let credentials : DeviceCredentials :=
      { host, deviceName, deviceId := id, deviceUser := username
        deviceToken := utf8 deviceCredentials, version := "1.0.0" }
    if !credentials.isValid then return { success := false, statusCode := response.statusCode }
    else return { success := true, statusCode := response.statusCode, credentials }

/-- `auto_provision_with_device_id`: the server and the user come from the claims of the token. A
token without one of them is a failure without a status. -/
def autoProvisionWithDeviceId (token deviceId deviceName product : String) :
    SessionM ProvisionResult := do
  let payload ← auth.decodeToken token
  match payload.find "svr", payload.find "usr" with
  | some svr, some usr =>
    let host ← auth.accessOf svr svr.getString
    let username ← auth.accessOf usr usr.getString
    auth.provisionDevice host username deviceId deviceName token product
  | _, _ => return { success := false, statusCode := 0 }

/-- `delete_device`: whether the server reports that the device is gone. A device that was not there
is no success. -/
def deleteDevice (host username deviceId accessToken : String) : SessionM Bool := do
  let response ← auth.makeHttpRequestWithFallback
    (deleteDeviceRequest host username deviceId accessToken)
  return response.success && (response.statusCode = 200 || response.statusCode = 204)

end

/-! ### Products and alarm rules -/

/-- Where the products of a user are listed and created. -/
def productsUrl (host username : String) : String :=
  ensureHttps host ++ "/v1/users/" ++ username ++ "/products"

/-- `build_default_product`. The braces of a text are written by their codes. -/
def buildDefaultProduct (productId productName : String) : Json :=
  .obj [("product", .str productId), ("name", .str productName),
    ("description", .str "ThinRemote Linux monitoring agent"), ("enabled", .bool true),
    ("config", .obj [("type", .str "thinremote"),
      ("icons", .arr [.obj [("conditions", .arr []),
        ("icon", .obj [("type", .str "fa"), ("source", .str "fab fa-linux"),
          ("color", .str "#000000"), ("background", .str "#ffffff")])]])]),
    ("profile", .obj [("buckets", .obj [("monitoring", .obj [("name", .str "Monitoring Data"),
      ("description", .str "ThinRemote device metrics"), ("enabled", .bool true),
      ("backend", .str "mongodb"),
      ("data", .obj [("source", .str "resource"), ("resource", .str "monitoring"),
        ("update", .str "interval"), ("interval", .int 60), ("magnitude", .str "second"),
        ("payload", .str "\x7b\x7bpayload\x7d\x7d"), ("payload_function", .str ""),
        ("payload_type", .str "source_payload")]),
      ("retention", .obj [("period", .int 3), ("unit", .str "months")]),
      ("tags", .arr [])])])])]

section
variable (auth : AuthManager)

/-- `list_products`. A listing that cannot be read counts as a failure, and its exception is
caught. -/
def listProducts (host username accessToken : String) : SessionM ProductListResult := do
  match ← attempt (auth.makeHttpRequestWithFallback
      { url := productsUrl host username, method := "GET"
        authorization := "Bearer " ++ accessToken }) with
  | .error _ => return { success := false, statusCode := 0 }
  | .ok response =>
    if !response.success || response.statusCode ≠ 200 then
      return { success := false, statusCode := response.statusCode }
    else
      match auth.library.text.parse response.body with
      | some products => return { success := true, statusCode := response.statusCode, products }
      | none => return { success := false, statusCode := 0 }

/-- `create_product`, with the exception of the request as a failure. -/
def createProduct (host username accessToken : String) (productData : Json) :
    SessionM ProductCreateResult := do
  match ← attempt (auth.makeHttpRequestWithFallback
      { url := productsUrl host username, method := "POST", payload := productData
        authorization := "Bearer " ++ accessToken }) with
  | .error e => return { success := false, statusCode := 0, errorDetail := e }
  | .ok response =>
    if !response.success || (response.statusCode ≠ 200 && response.statusCode ≠ 201) then
      return { success := false, statusCode := response.statusCode, errorDetail := response.body }
    else return { success := true, statusCode := response.statusCode }

variable (account : AlarmAccount)

/-- `list_alarm_rules`. How its answer is judged is the function of `Auth.AlarmRules`, which is
asked with a client that has this answer. -/
def listAlarmRules : SessionM AlarmRuleListResult := do
  let answer ← attempt (auth.makeHttpRequestWithFallback account.listRequest)
  return ThinrAgent.listAlarmRules auth.library.text (fun _ => answer) account

/-- `create_alarm_rule`: the request is made with the fallback, and its answer is judged by the
function on answers. -/
def createAlarmRule (ruleData : Json) : SessionM AlarmRuleCreateResult := do
  let answer ← attempt (auth.makeHttpRequestWithFallback (account.createRequest ruleData))
  return ThinrAgent.createAlarmRule (fun _ => answer) account ruleData

/-- `delete_alarm_rule`: the request is made with the fallback, and its answer is judged by the
function on answers. -/
def deleteAlarmRule (ruleId : String) : SessionM Bool := do
  let answer ← attempt (auth.makeHttpRequestWithFallback (account.deleteRequest ruleId))
  return ThinrAgent.deleteAlarmRule (fun _ => answer) account ruleId

/-- The loop of `force`: every default rule that exists is deleted, and the ones whose deletion
fails still count as existing afterwards. -/
def deleteDefaults : List AlarmRule → List String → SessionM (List String)
  | [], existing => return existing
  | ruleDef :: rest, existing => do
    if ruleDef.id = "" ∨ ruleDef.id ∉ existing then deleteDefaults rest existing
    else
      let deleted ← auth.deleteAlarmRule account ruleDef.id
      deleteDefaults rest
        (if deleted then existing.filter fun id => id ≠ ruleDef.id else existing)

/-- The loop that creates the default rules that are missing. A rule that fails is counted, and the
loop goes on with the next one. -/
def seedDefaults : List AlarmRule → List String → EnsureAlarmsResult → SessionM EnsureAlarmsResult
  | [], _, result => return result
  | ruleDef :: rest, existing, result => do
    if ruleDef.id = "" then seedDefaults rest existing result
    else if ruleDef.id ∈ existing then
      seedDefaults rest existing { result with alreadyPresent := result.alreadyPresent + 1 }
    else
      let created ← auth.createAlarmRule account ruleDef.definition
      seedDefaults rest existing
        (if created.success then { result with created := result.created + 1 }
        else { result with failed := result.failed + 1 })

/-- `ensure_default_alarms` as a program. `ensureDefaultAlarms_single` says that it is the function
of `Auth.AlarmRules`, for a server that answers it. -/
def ensureDefaultAlarms (force : Bool) : SessionM EnsureAlarmsResult := do
  let listResult ← auth.listAlarmRules account
  if !listResult.success then return {}
  else
    let existing ← auth.accessOf listResult.rules (existingIds listResult.rules)
    let existing ← (if force then auth.deleteDefaults account defaultAlarmRules existing
      else pure existing)
    auth.seedDefaults account defaultAlarmRules existing { listed := true }

end

end AuthManager

end ThinrAgent
