import ThinrAgent.Auth.AuthManager
import ThinrAgent.Cli.Reconfigure
import ThinrAgent.Installer.InteractiveSetup
import ThinrAgent.Update.UpdateSettings

/-!
# `ThinrAgent.Cli.InstallCommand`: the command `install`

`handle_install` (`cli/command_handler.cpp`) as a program of a session: the checks at the start, the
login with a token or with a password, the product, the device, and the end that saves the
configuration with its update policy and installs the service. The members `verify_ssl_` and
`update_policy_` are parameters of the end. The branch for Android is left out.
-/

set_option autoImplicit false

namespace ThinrAgent

open Effects

/-- The options of the command line, with their defaults. -/
structure InstallOptions where
  token : String := ""
  deviceId : String := ""
  name : String := ""
  product : String := ""
  host : String := "backend.thinger.io"
  updatePolicy : String := ""
  overwrite : Bool := false
  noStart : Bool := false
  noVerifySsl : Bool := false
  deriving DecidableEq

namespace InstallCommand

/-- The `auth_manager_` of a command handler has no callback here. -/
def authManager (library : SessionLibrary) : AuthManager where
  library := library

/-! ### The device and its product -/

/-- The identifier that is given, or a generated one. -/
def determineDeviceId (providedDeviceId : String) : SessionM String :=
  if providedDeviceId ≠ "" then return providedDeviceId else ask .generateDeviceId

/-- The name that is given, or the host name in lower case. A host without a name of its own gets
the fallback. -/
def determineDeviceName (requested fallback : String) : SessionM String := do
  if requested ≠ "" then return requested
  else
    let hostname ← ask .hostName
    let name := String.ofList ((withoutLocalSuffix (hostname.getD "")).toList.map Char.toLower)
    return if name = "" ∨ name = "localhost" then fallback else name

section
variable (library : SessionLibrary)

/-- The loop that looks for the product that was asked for. The name of the product is read for the
message. -/
def findProduct (providedProduct : String) : List Json → Except JsonError Bool
  | [] => .ok false
  | p :: rest => do
    let id ← p.value Json.getString "product" ""
    if id = providedProduct then
      let _ ← p.value Json.getString "name" providedProduct
      return true
    else findProduct providedProduct rest

/-- The loop that looks for a product of the type `thinremote`. There is none with an empty
identifier. -/
def findThinRemote : List Json → Except JsonError String
  | [] => .ok ""
  | p :: rest => do
    let type ← match (p.find "config").bind fun config => config.find "type" with
      | some type => type.getString
      | none => .ok ""
    if type = "thinremote" then
      let id ← p.value Json.getString "product" ""
      if id ≠ "" then
        let _ ← p.value Json.getString "name" id
        return id
      else findThinRemote rest
    else findThinRemote rest

/-- The entries of a listing that the server has sent. A body that is no array counts as an empty
listing. -/
def listed : Json → List Json
  | .arr entries => entries
  | _ => []

/-- The product that was asked for. It is created when the listing does not have it. -/
def resolveProvided (account : AlarmAccount) (products : Json) (providedProduct : String) :
    SessionM String := do
  let auth := authManager library
  let found ← auth.accessOf products (findProduct providedProduct (listed products))
  if found then return providedProduct
  else
    let _ ← auth.createProduct account.host account.username account.accessToken
      (AuthManager.buildDefaultProduct providedProduct providedProduct)
    return providedProduct

/-- The first product of the type `thinremote`, or a new one. Where none can be created, the device
has no product. -/
def resolveDefault (account : AlarmAccount) (products : Json) : SessionM String := do
  let auth := authManager library
  let id ← auth.accessOf products (findThinRemote (listed products))
  if id ≠ "" then return id
  else
    let created ← auth.createProduct account.host account.username account.accessToken
      (AuthManager.buildDefaultProduct "thinremote" "ThinRemote")
    return if created.success then "thinremote" else ""

/-- The product of the device: the one that is asked for, or the default one, with the default
alarms in each case. When the products cannot be listed, the identifier is taken as it was given. -/
def resolveProduct (host username accessToken providedProduct : String) : SessionM String := do
  let auth := authManager library
  let account : AlarmAccount := { host, username, accessToken }
  let listResult ← auth.listProducts host username accessToken
  if !listResult.success then return providedProduct
  else
    let resolvedId ← (if providedProduct ≠ "" then
      resolveProvided library account listResult.products providedProduct
      else resolveDefault library account listResult.products)
    if resolvedId ≠ "" then
      let _ ← auth.ensureDefaultAlarms account false
      return resolvedId
    else return resolvedId

/-! ### The end -/

/-- The update policy that the installation records. An explicit one wins, and a section that is
there is kept without one. -/
def recordPolicy (updatePolicy : String) : SessionM Unit := do
  let existing ← ask .readUpdateSection
  let settings := UpdateSettings.fromJson existing
  if updatePolicy ≠ "" then
    match UpdatePolicy.ofString updatePolicy with
    | some policy => do
      let written ← ask (.writeUpdateSection
        { settings with policy, source := .localExplicit }.toJson)
      valueOf written
    | none => return ()
  else if existing.isEmpty then do
    let written ← ask (.writeUpdateSection settings.toJson)
    valueOf written
  else return ()

/-- The part of `save_and_install_service` behind the configuration: the service is installed and,
unless `--no-start` was given, started. An exception of either step ends it. -/
def installAndStart (noStart : Bool) : SessionM Bool := do
  let installed ← ask .installService
  if ← valueOf installed then
    if noStart then return true
    else
      let started ← ask .startService
      let _ ← valueOf started
      return true
  else return false

/-- `save_and_install_service`: the credentials are saved first. An exception of the save ends the
command before the service is touched. -/
def saveAndInstallService (options : InstallOptions) (credentials : DeviceCredentials) :
    SessionM Bool := do
  let saved ← ask (.save { credentials with verifySsl := !options.noVerifySsl })
  valueOf saved
  recordPolicy options.updatePolicy
  installAndStart options.noStart

/-- Create the device and go on to the end. With `--overwrite` a refused device is deleted and
created once more. -/
def completeProvisioning (options : InstallOptions)
    (host username deviceId deviceName accessToken productId : String) : SessionM Bool := do
  let auth := authManager library
  let provision := auth.provisionDevice host username deviceId deviceName accessToken productId
  let result ← provision
  if result.success then saveAndInstallService options result.credentials
  else if result.statusCode = 409 ∧ options.overwrite = true then
    -- The result of the deletion is not looked at.
    let _ ← auth.deleteDevice host username deviceId accessToken
    let retry ← provision
    if retry.success then saveAndInstallService options retry.credentials else return false
  else return false

/-! ### The command -/

/-- The host and the user that a token names, or the end of the command. -/
def claimsOfToken (token : String) : SessionM (Option (String × String)) := do
  let auth := authManager library
  let jwtPayload ← auth.decodeToken token
  match jwtPayload.find "svr", jwtPayload.find "usr" with
  | some svr, some usr =>
    let host ← auth.accessOf svr svr.getString
    let username ← auth.accessOf usr usr.getString
    return some (host, username)
  | _, _ => return none

/-- The command with a token: the host and the user are in its claims. An exception is a failure. -/
def installWithToken (options : InstallOptions) : SessionM Bool :=
  (do
    match ← claimsOfToken library options.token with
    | none => return false
    | some (host, username) => do
      let productId ← resolveProduct library host username options.token options.product
      let deviceId ← determineDeviceId options.deviceId
      let deviceName ← determineDeviceName options.name deviceId
      completeProvisioning library options host username deviceId deviceName options.token
        productId).tryCatch fun _ => return false

/-- The command without a token: it asks for a user name and a password, and needs a terminal. -/
def installInteractive (options : InstallOptions) : SessionM Bool := do
  if !(← ask .isInteractive) then return false
  else
    let username ← ask (.readLine "Thinger.io username: ")
    if username = "" then return false
    else
      let password ← ask (.readPassword "Password: ")
      let deviceId ← determineDeviceId options.deviceId
      let deviceName ← determineDeviceName options.name deviceId
      let result ← (authManager library).oauthPasswordFlow options.host username password
      if !result.success then return false
      else
        let productId ← resolveProduct library options.host username result.accessToken
          options.product
        completeProvisioning library options options.host username deviceId deviceName
          result.accessToken productId

/-- `handle_install`: the exit code. An existing configuration is overwritten only with
`--overwrite` and a token, and an invalid policy is refused before anything is done. -/
def handleInstall (options : InstallOptions) : SessionM Nat := do
  let found ← ask .configExists
  if found = true ∧ ¬(options.overwrite = true ∧ options.token ≠ "") then return 1
  else if options.updatePolicy ≠ "" ∧ UpdatePolicy.ofString options.updatePolicy = none then
    return 1
  else
    let success ← (if options.token ≠ "" then installWithToken library options
      else installInteractive library options)
    return if success then 0 else 1

end

end InstallCommand

end ThinrAgent
