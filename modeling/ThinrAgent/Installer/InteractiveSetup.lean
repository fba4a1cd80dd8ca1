import ThinrAgent.Auth.AuthManager
import ThinrAgent.Cli.Reconfigure

/-!
# `ThinrAgent.Installer.InteractiveSetup`: the interactive setup as a session

`interactive_setup` (`installer/interactive_setup.cpp`): the menus, the four ways to authenticate,
the choice of a product, the loop over an identifier that is taken, and the end that saves the
configuration and installs the service. The loops have a bound on their rounds; behind it stands an
operation without a result. What happens to the files when the configuration is saved is the matter
of `Config.ConfigStore` and `Cli.Reconfigure`.
-/

set_option autoImplicit false

namespace ThinrAgent

open Effects

/-- The four ways to authenticate, in the order of the source. The menu lists them in another
order. -/
inductive AuthMethod where
  | passwordFlow
  | autoProvision
  | deviceFlow
  | directCredentials
  deriving DecidableEq, Repr

/-- What the user does about an identifier that is taken. Only one of the three deletes
something. -/
inductive ConflictResolution where
  | chooseNewId
  | overwrite
  | goBack
  deriving DecidableEq, Repr

/-- `OAUTH2_CLIENT_ID`: the identifier with which the setup logs in. -/
def OAUTH2_CLIENT_ID : Bytes := ascii "3b40164d28730e416cbc"

/-- A host name without a suffix `.local`. The name `.local` itself stays as it is. -/
def withoutLocalSuffix (hostname : String) : String :=
  let text := hostname.toList
  let suffix := ".local".toList
  if suffix.length < text.length ∧ text.drop (text.length - suffix.length) = suffix then
    String.ofList (text.take (text.length - suffix.length))
  else hostname

namespace InteractiveSetup

/-- `Console::confirm`: a menu of two options. An answer outside of them is the default. -/
def confirm (prompt : String) (defaultYes : Bool) : SessionM Bool := do
  let choice ← ask (.choose prompt ["Yes", "No"])
  if choice.1 = 1 then return true
  else if choice.1 = 2 then return false
  else return defaultYes

/-- The question that is put to the user before an insecure connection is made. -/
def sslQuestion : String := "Continue without certificate verification?"

/-- The callback that the constructor sets. It asks once in a session. -/
def sslVerificationCallback (_errorMsg : String) : SessionM Bool := do
  let decision ← ask .sslDecision
  if decision = .notAsked then
    let allow ← confirm sslQuestion true
    ask (.setSslDecision (if allow then .noVerify else .verify))
    return allow
  else return decision = .noVerify

/-- The `auth_manager_` of a setup, whose callback asks the user the question. -/
def authManager (library : SessionLibrary) : AuthManager where
  library := library
  sslVerificationCallback := some sslVerificationCallback

/-! ### Menus -/

/-- The options of the main menu. Their numbers are what the user types. -/
def mainMenuOptions : List String :=
  ["Install as a service", "Configure for standalone execution",
    "Test connection without installing", "Exit"]

/-- `show_main_menu`: the last option, and every number behind the first three, is the exit. -/
def showMainMenu : SessionM MainMenuOption := do
  let choice ← ask (.choose "" mainMenuOptions)
  match choice.1 with
  | 1 => return .installService
  | 2 => return .configureStandalone
  | 3 => return .testConnection
  | _ => return .exit

/-- The options of the menu of ways to authenticate, the recommended one first. -/
def authMethodOptions : List String :=
  ["Browser authentication (recommended)", "Username and password", "Auto-provisioning token",
    "Direct device credentials"]

/-- `select_auth_method`. The device flow is the first option, and also the fallback of the
`switch`. -/
def selectAuthMethod : SessionM AuthMethod := do
  let choice ← ask (.choose "🔐 Select authentication method:" authMethodOptions)
  match choice.1 with
  | 2 => return .passwordFlow
  | 3 => return .autoProvision
  | 4 => return .directCredentials
  | _ => return .deviceFlow

/-- The prompt of the menus after a failure. -/
def nextPrompt : String := "What would you like to do?"

/-- The options after a way to authenticate has failed. -/
def retryOptions : List String :=
  ["Try again with same method", "Choose different authentication method", "Exit setup"]

/-- The options when the server has the identifier already. The second one leads to the only
deletion of a setup. -/
def conflictOptions : List String :=
  ["Choose different identifier", "Overwrite (delete existing device)", "Go back"]

/-- `handle_device_conflict`: the device exists already, and the user chooses another identifier, or
to overwrite it, or to go back. -/
def handleDeviceConflict : SessionM ConflictResolution := do
  let choice ← ask (.choose nextPrompt conflictOptions)
  match choice.1 with
  | 1 => return .chooseNewId
  | 2 => return .overwrite
  | _ => return .goBack

/-! ### The device -/

/-- Characters other than letters, digits, `-` and `_` become `-`. -/
def cleanIdChar (c : Char) : Char := if c.isAlphanum || c = '-' || c = '_' then c else '-'

/-- `get_default_device_id`: the generated identifier, cut to 32 characters, with the characters
replaced that an identifier must not have. -/
def getDefaultDeviceId : SessionM String := do
  let generatedId ← ask .generateDeviceId
  let text := if 32 < generatedId.length then generatedId.toList.take 32 else generatedId.toList
  return String.ofList (text.map cleanIdChar)

/-- `get_default_device_name`: the name of the host without its local suffix, in lower case. A host
without a name has a name all the same. -/
def getDefaultDeviceName : SessionM String := do
  let hostname := match ← ask .hostName with
    | some hostname => if hostname = "" then "ThinRemote Device" else hostname
    | none => "ThinRemote Device"
  return String.ofList ((withoutLocalSuffix hostname).toList.map Char.toLower)

/-- `prompt_device_info`: the identifier and the name, each with its default for an empty line. -/
def promptDeviceInfo : SessionM (String × String) := do
  let defaultDeviceId ← getDefaultDeviceId
  let deviceIdInput ← ask (.readLine ("Device ID [" ++ defaultDeviceId ++ "]: "))
  let deviceId := if deviceIdInput = "" then defaultDeviceId else deviceIdInput
  let defaultDeviceName ← getDefaultDeviceName
  let deviceNameInput ← ask (.readLine ("Device Name [" ++ defaultDeviceName ++ "]: "))
  let deviceName := if deviceNameInput = "" then defaultDeviceName else deviceNameInput
  return (deviceId, deviceName)

/-- The identifier for the next attempt. An empty one is asked for. -/
def deviceIdOrAsk (deviceId : String) : SessionM String := do
  if deviceId = "" then
    let input ← ask (.readLine "Device ID [thinremote-device]: ")
    return if input = "" then "thinremote-device" else input
  else return deviceId

/-- `provision_with_conflict_loop`: create the device, and ask the user what to do when it exists
already. Only the choice to overwrite deletes a device. The rounds are bounded by the fuel. -/
def provisionWithConflictLoop (deviceName : String)
    (provisionFn : String → String → SessionM ProvisionResult) (deleteFn : String → SessionM Bool) :
    Nat → String → SessionM DeviceCredentials
  | 0, _ => unfinished
  | fuel + 1, deviceId => do
    let deviceId ← deviceIdOrAsk deviceId
    let result ← provisionFn deviceId deviceName
    if result.success then return result.credentials
    else if result.statusCode = 409 then
      match ← handleDeviceConflict with
      | .chooseNewId => provisionWithConflictLoop deviceName provisionFn deleteFn fuel ""
      | .overwrite => do
        if ← deleteFn deviceId then
          let retry ← provisionFn deviceId deviceName
          if retry.success then return retry.credentials
          else provisionWithConflictLoop deviceName provisionFn deleteFn fuel ""
        else provisionWithConflictLoop deviceName provisionFn deleteFn fuel ""
      | .goBack => .throw (.setupCancelled "Setup cancelled by user")
    else .throw (.runtimeError
      ("Device provisioning failed (HTTP " ++ toString result.statusCode ++ ")"))

section
variable (library : SessionLibrary)

/-- `provision_with_conflict_resolution`: the loop over a taken identifier, with the requests of a
user who is logged in. -/
def provisionWithConflictResolution (fuel : Nat)
    (host username initialDeviceId deviceName accessToken product : String) :
    SessionM DeviceCredentials :=
  provisionWithConflictLoop deviceName
    (fun did dname => (authManager library).provisionDevice host username did dname accessToken
      product)
    (fun did => (authManager library).deleteDevice host username did accessToken)
    fuel initialDeviceId

/-- How a device is deleted with a token: on the server and for the user that the token names. A
token without them deletes nothing. -/
def deleteWithToken (token deviceId : String) : SessionM Bool := do
  let auth := authManager library
  let payload ← auth.decodeToken token
  let host ← auth.accessOf payload (payload.value Json.getString "svr" "")
  let username ← auth.accessOf payload (payload.value Json.getString "usr" "")
  if host = "" ∨ username = "" then return false
  else auth.deleteDevice host username deviceId token

/-- The same loop with the requests of a provisioning token, whose claims name the server and the
user. -/
def autoProvisionWithConflictResolution (fuel : Nat)
    (token initialDeviceId deviceName product : String) : SessionM DeviceCredentials :=
  provisionWithConflictLoop deviceName
    (fun did dname => (authManager library).autoProvisionWithDeviceId token did dname product)
    (deleteWithToken library token) fuel initialDeviceId

/-! ### The product -/

/-- The identifier and the name of an entry of the listing, when it is of the type `thinremote`. -/
def thinRemoteProduct (p : Json) : Except JsonError (Option (String × String)) := do
  let id ← p.value Json.getString "product" ""
  let name ← p.value Json.getString "name" id
  let type ← match (p.find "config").bind fun config => config.find "type" with
    | some type => type.getString
    | none => .ok ""
  return if id ≠ "" ∧ type = "thinremote" then some (id, name) else none

/-- The products of a listing that are of the type of the agent, with their names. A listing that is
no array has none. -/
def thinRemoteProducts : Json → Except JsonError (List (String × String))
  | .arr entries => do return (← entries.mapM thinRemoteProduct).filterMap id
  | _ => .ok []

/-- Create a product and then the default alarm rules, without `force`. The result is the product's
identifier, or empty where it could not be created. -/
def createAndSeed (account : AlarmAccount) (productId productName : String) : SessionM String := do
  let auth := authManager library
  let created ← auth.createProduct account.host account.username account.accessToken
    (AuthManager.buildDefaultProduct productId productName)
  if created.success then
    let _ ← auth.ensureDefaultAlarms account false
    return productId
  else return ""

/-- `select_or_create_product`: the only product is taken, one of several is chosen, and without any
the default one is created. Its alarm rules are seeded, without `force`. -/
def selectOrCreateProduct (host username accessToken : String) : SessionM String := do
  let auth := authManager library
  let account : AlarmAccount := { host, username, accessToken }
  let listResult ← auth.listProducts host username accessToken
  if !listResult.success then return ""
  else
    let products ← auth.accessOf listResult.products (thinRemoteProducts listResult.products)
    match products with
    | [] => createAndSeed library account "thinremote" "ThinRemote"
    | [product] => do
      let _ ← auth.ensureDefaultAlarms account false
      return product.1
    | products => do
      let choice ← ask (.choose "" (products.map (fun p => p.2 ++ " (" ++ p.1 ++ ")") ++
        ["Create new product", "Skip (no product association)"]))
      if 1 ≤ choice.1 ∧ choice.1 ≤ products.length then
        let _ ← auth.ensureDefaultAlarms account false
        return (products[(choice.1 - 1).toNat]?.getD ("", "")).1
      else if choice.1 = products.length + 1 then
        let productId ← ask (.readLine "Product ID (e.g: my-product):")
        if productId = "" then return ""
        else
          let productName ← ask (.readLine "Product Name:")
          createAndSeed library account productId
            (if productName = "" then productId else productName)
      else return ""

/-! ### The ways to authenticate -/

/-- The way with a user name and a password: log in, describe the device, select its product and
provision it. -/
def passwordFlowAuth (fuel : Nat) : SessionM DeviceCredentials := do
  let host ← ask (.readLine "ThinRemote Host (e.g: acme.thinr.io):")
  let username ← ask (.readLine "Username: ")
  let password ← ask (.readPassword "Password: ")
  let result ← (authManager library).oauthPasswordFlow host username password
  if !result.success then .throw (.runtimeError "Authentication failed")
  else
    let (deviceId, deviceName) ← promptDeviceInfo
    let productId ← selectOrCreateProduct library host username result.accessToken
    provisionWithConflictResolution library fuel host username deviceId deviceName
      result.accessToken productId

/-- The product for a token that names a server and a user. Every exception is caught. -/
def productOfToken (token : String) : SessionM String :=
  (do
    let auth := authManager library
    let jwtPayload ← auth.decodeToken token
    let host ← auth.accessOf jwtPayload (jwtPayload.value Json.getString "svr" "")
    let username ← auth.accessOf jwtPayload (jwtPayload.value Json.getString "usr" "")
    if host ≠ "" ∧ username ≠ "" then selectOrCreateProduct library host username token
    else return "").tryCatch fun _ => return ""

/-- The way with a provisioning token. The token is decoded first, so that one that is none is
refused before anything is asked. -/
def autoProvisionAuth (fuel : Nat) : SessionM DeviceCredentials := do
  let token ← ask (.readLine "Provisioning token: ")
  let _ ← ((authManager library).decodeToken token).tryCatch fun _ =>
    .throw (.runtimeError "Auto-provisioning failed")
  let (deviceId, deviceName) ← promptDeviceInfo
  let productId ← productOfToken library token
  autoProvisionWithConflictResolution library fuel token deviceId deviceName productId

/-- The user that a token names in its claim `usr`. Every failure on the way is thrown again with a
text in front. -/
def usernameOfToken (accessToken : String) : SessionM String :=
  (do
    let auth := authManager library
    let payload ← auth.decodeToken accessToken
    match payload.find "usr" with
    | some usr => auth.accessOf usr usr.getString
    | none => .throw (.runtimeError "JWT token missing 'usr' field")).tryCatch fun e =>
      .throw (.runtimeError ("Failed to extract username from access token: " ++ e.what))

/-- The way with a browser: the user grants the access there while the setup polls for the token.
The name of the user is read out of the token. -/
def deviceFlowAuth (fuel : Nat) : SessionM DeviceCredentials := do
  let auth := authManager library
  let host ← ask (.readLine "ThinRemote Host (e.g: acme.thinr.io):")
  let deviceFlow ← auth.startDeviceFlow host OAUTH2_CLIENT_ID
  if !deviceFlow.success then .throw (.runtimeError "Device flow authentication failed")
  else
    let granted := deviceFlow.response
    let pollResult ← auth.pollDeviceToken host OAUTH2_CLIENT_ID (utf8 granted.deviceCode)
      granted.expiresIn granted.interval fuel
    if !pollResult.success then .throw (.runtimeError "Device flow authentication failed")
    else
      let (deviceId, deviceName) ← promptDeviceInfo
      let username ← usernameOfToken library pollResult.accessToken
      let productId ← selectOrCreateProduct library host username pollResult.accessToken
      provisionWithConflictResolution library fuel host username deviceId deviceName
        pollResult.accessToken productId

/-- The credentials that the user has typed in, with the version of a new configuration. -/
def typedCredentials (host deviceUser deviceId deviceToken : String) : DeviceCredentials :=
  { host, deviceUser, deviceId, deviceToken := utf8 deviceToken, version := "1.0.0" }

/-- The way with credentials that are typed in. No request is sent, so no server has confirmed
them. -/
def directCredentialsAuth : SessionM DeviceCredentials := do
  let host ← ask (.readLine "Host: ")
  let deviceUser ← ask (.readLine "Device user: ")
  let deviceId ← ask (.readLine "Device ID: ")
  let deviceToken ← ask (.readPassword "Device token: ")
  return typedCredentials host deviceUser deviceId deviceToken

/-- The way to credentials that the user has selected from the list. -/
def authenticateWith (fuel : Nat) : AuthMethod → SessionM DeviceCredentials
  | .passwordFlow => passwordFlowAuth library fuel
  | .autoProvision => autoProvisionAuth library fuel
  | .deviceFlow => deviceFlowAuth library fuel
  | .directCredentials => directCredentialsAuth

/-- One round of `authenticate`. It has no value after a failure other than a cancellation. -/
def tryAuthenticate (fuel : Nat) (method : AuthMethod) : SessionM (Option DeviceCredentials) :=
  (do
    let credentials ← authenticateWith library fuel method
    return some credentials).tryCatch fun e =>
      match e with
      | .setupCancelled text => .throw (.setupCancelled text)
      | .runtimeError _ => return none

/-- The method of the last round. Without one the user selects it. -/
def methodOrSelect : Option AuthMethod → SessionM AuthMethod
  | some method => return method
  | none => selectAuthMethod

/-- `authenticate`. The rounds of the loops inside are bounded by `inner`. -/
def authenticate (inner : Nat) : Nat → Option AuthMethod → SessionM DeviceCredentials
  | 0, _ => unfinished
  | fuel + 1, chosen => do
    let method ← methodOrSelect chosen
    match ← tryAuthenticate library inner method with
    | some credentials => return credentials
    | none => do
      let choice ← ask (.choose nextPrompt retryOptions)
      match choice.1 with
      | 2 => authenticate inner fuel none
      | 3 => .throw (.setupCancelled "Setup cancelled by user")
      | _ => authenticate inner fuel (some method)

/-! ### The end -/

/-- `save`, with the decision about certificates. It has no value when it fails. -/
def saveWithDecision (credentials : DeviceCredentials) : SessionM Bool := do
  let decision ← ask .sslDecision
  let finalCredentials :=
    if decision = .noVerify then { credentials with verifySsl := false } else credentials
  match ← ask (.save finalCredentials) with
  | .ok () => return true
  | .error _ => return false

/-- The end of the first option: save the configuration, install the service and start it. A service
that is not installed makes the setup fail with the configuration saved. -/
def installAsService (credentials : DeviceCredentials) : SessionM Bool := do
  if ← saveWithDecision credentials then
    let installed ← ask .installService
    if ← valueOf installed then
      let started ← ask .startService
      let _ ← valueOf started
      return true
    else return false
  else return false

/-- The end of the second option, which saves and does no more. -/
def saveConfigurationOnly (credentials : DeviceCredentials) : SessionM Bool :=
  saveWithDecision credentials

/-- The options after a test of the connection. The test itself saves nothing. -/
def afterTestOptions : List String :=
  ["Install as a service", "Save configuration for standalone use", "Exit without saving"]

/-- The case `TEST_CONNECTION`, with valid credentials: after a test that has worked the user
chooses whether to install the service, to save only, or to leave. -/
def testThenOffer (credentials : DeviceCredentials) : SessionM Bool := do
  if ← ask (.testConnection credentials) then
    let choice ← ask (.choose "" afterTestOptions)
    match choice.1 with
    | 1 => installAsService credentials
    | 2 => saveConfigurationOnly credentials
    | _ => return true
  else return false

/-- What an option of the main menu does with valid credentials: install the service, save the
configuration only, or test the connection first. -/
def finish (option : MainMenuOption) (credentials : DeviceCredentials) : SessionM Bool :=
  match option with
  | .installService => installAsService credentials
  | .configureStandalone => saveConfigurationOnly credentials
  | .testConnection => testThenOffer credentials
  | .exit => return false

/-- `interactive_setup::run`: the main menu, the login with its own menus, and what the option does
with valid credentials. An exception ends the setup without success. -/
def run (fuel : Nat) : SessionM Bool :=
  (do
    let option ← showMainMenu
    if option = MainMenuOption.exit then return false
    else
      let credentials ← authenticate library fuel fuel none
      if !credentials.isValid then return false
      else finish option credentials).tryCatch fun _ => return false

end

end InteractiveSetup

end ThinrAgent
