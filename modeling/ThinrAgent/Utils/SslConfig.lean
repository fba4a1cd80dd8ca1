import ThinrAgent.Config.ConfigPath
import ThinrAgent.System.Calls

/-!
# `ThinrAgent.Utils.SslConfig`: certificate set-up

`SSLConfig::configure_ssl_certificates` (`utils/ssl_config.cpp`): keep what the environment
variables say, or find a bundle of the system, or write the roots that are compiled in. The text
of those roots (`EMBEDDED_CA_CERTS`) is a parameter. The variables that the function sets for the
TLS library, the permissions of the written file and the log lines are left out.
-/

set_option autoImplicit false

namespace ThinrAgent

open Effects

/-- The places in which systems keep their certificates, in the order of the search. -/
def CERT_FILE_PATHS : List Path :=
  ["/etc/ssl/certs/ca-certificates.crt",
    "/etc/pki/tls/certs/ca-bundle.crt",
    "/etc/ssl/ca-bundle.pem",
    "/etc/pki/tls/cert.pem",
    "/etc/pki/ca-trust/extracted/pem/tls-ca-bundle.pem",
    "/etc/ssl/cert.pem",
    "/usr/local/share/certs/ca-root-nss.crt",
    "/etc/ssl/certs/ca-bundle.crt",
    "/etc/ca-certificates/extracted/tls-ca-bundle.pem",
    "/usr/share/ca-certificates/ca-bundle.crt"]

/-- `get_certs_directory`: the directory for the embedded certificates. It is the system's for root,
and otherwise under the home directory of the environment or of the password file, or `/tmp`. -/
def certsDirectory (user : User) : Path :=
  if user.euid = 0 then "/etc/thinr-agent"
  else
    match user.home <|> user.pwDir with
    | some home => home ++ "/.config/thinr-agent"
    | none => "/tmp"

/-- Where the roots that are compiled in are written. -/
def embeddedCertPath (user : User) : Path := certsDirectory user ++ "/ca-certificates.crt"

section
variable {β : Type}

/-- The variable is there and is not empty. -/
def isEnvSet (name : String) : SysM β Bool := do
  match ← getenv name with
  | some value => return decide (value ≠ "")
  | none => return false

/-- `find_cert_file` from a list of candidates on: the first that is a regular file, or the empty
path. -/
def findCertFile : List Path → SysM β Path
  | [] => return ""
  | path :: paths => do
    if ← fsExists path then
      if ← fsIsRegularFile path then return path
    findCertFile paths

/-- The file holds the roots already. A file that cannot be read is empty. -/
def certsUpToDate (certs : String) : Option (Content β) → Bool
  | some (.raw text) => decide (text = certs)
  | some _ => false
  | none => decide (certs = "")

/-- Write the roots. The results of the write and of the close are ignored. -/
def writeEmbeddedCerts (certs : String) (certPath : Path) : SysM β Bool := do
  match ← fsCreateDirectories (parentPath certPath) with
  | none => return false
  | some () =>
    if !(← openTrunc certPath 0o666) then return false
    let _ ← writeAll certPath (.raw certs)
    let _ ← close certPath
    return true

/-- `write_embedded_certs_if_needed`: the roots are written when the file is missing or differs. -/
def writeEmbeddedCertsIfNeeded (certs : String) (certPath : Path) : SysM β Bool := do
  if ← fsExists certPath then
    if certsUpToDate certs (← readFile certPath) then return true
    writeEmbeddedCerts certs certPath
  else writeEmbeddedCerts certs certPath

/-- `configure_ssl_certificates`: the variables come first, then the bundles of the system, then the
roots that are compiled in. -/
def configureSslCertificates (user : User) (certs : String) : SysM β Unit := do
  if ← isEnvSet "SSL_CERT_FILE" then return
  if ← isEnvSet "SSL_CERT_DIR" then return
  if (← findCertFile CERT_FILE_PATHS) ≠ "" then return
  let _ ← writeEmbeddedCertsIfNeeded certs (embeddedCertPath user)

end

end ThinrAgent
