import ThinrAgent.Effects.Conversation
import ThinrAgent.Auth.AlarmRules
import ThinrAgent.Auth.JwtPayload
import ThinrAgent.Config.Credentials

/-!
# `ThinrAgent.Auth.Session`: what a setup asks for

The interactive setup and the command `install` talk: to the server, to the user and to the system.
`SessionOp` lists what they ask for, with the type of each result. A result that the source has
checked carries the check: the number of an option is in the range of the menu. The texts that are
printed are left out.
-/

set_option autoImplicit false

namespace ThinrAgent

open Effects

/-- A request the HTTP client is asked to send. -/
inductive HttpCall where
  | json (request : JsonRequest) (verifySsl : Bool)
  | form (request : FormRequest)

/-- The client checks the certificate of the server. -/
def HttpCall.verifySsl : HttpCall → Bool
  | json _ verifySsl => verifySsl
  | form request => request.verifySsl

/-- The same request, with another value of `verify_ssl`. -/
def HttpCall.withVerify (verifySsl : Bool) : HttpCall → HttpCall
  | json request _ => .json request verifySsl
  | form request => .form { request with verifySsl }

/-- `SSLVerificationDecision`: what the user has said about insecure connections, so that the
question is put once in a session. -/
inductive SslDecision where
  | notAsked
  | verify
  | noVerify
  deriving DecidableEq, Repr

/-- The number of an option, as `getUserChoice` returns it. -/
abbrev OptionNumber (options : List String) := { n : Int // 1 ≤ n ∧ n ≤ options.length }

/-- What a session asks of the world outside: requests to the server, questions to the user, facts
of the system, and the steps that install the service. -/
inductive SessionOp where
  | http (call : HttpCall)
  /-- `getUserChoice`. -/
  | choose (prompt : String) (options : List String)
  | readLine (prompt : String)
  | readPassword (prompt : String)
  /-- `isatty` of the input and the output. -/
  | isInteractive
  /-- One of the characters, at random. -/
  | drawChar (chars : List Char)
  | osDescription
  /-- `boost::asio::ip::host_name` and `gethostname`. -/
  | hostName
  /-- `DeviceIdGenerator::generate`. -/
  | generateDeviceId
  /-- The nanoseconds since the start of a poll. -/
  | elapsed
  | sleep (seconds : Int)
  /-- The member `ssl_decision_`. -/
  | sslDecision
  | setSslDecision (decision : SslDecision)
  | configExists
  | save (credentials : DeviceCredentials)
  | readUpdateSection
  | writeUpdateSection (updateObj : Json)
  | installService
  | startService
  /-- The connection of a temporary agent, and the user who stops it. -/
  | testConnection (credentials : DeviceCredentials)
  /-- A loop that has not ended yet. It has no result. -/
  | unfinished

/-- The results. A call that throws has a text. -/
@[reducible] def SessionOp.Res : SessionOp → Type
  | http _ => HttpAnswer
  | choose _ options => OptionNumber options
  | readLine _ => String
  | readPassword _ => String
  | isInteractive => Bool
  | drawChar chars => { c : Char // c ∈ chars }
  | osDescription => String
  | hostName => Option String
  | generateDeviceId => String
  | elapsed => Int
  | sleep _ => Unit
  | sslDecision => SslDecision
  | setSslDecision _ => Unit
  | configExists => Bool
  | save _ => Except String Unit
  | readUpdateSection => Json
  | writeUpdateSection _ => Except String Unit
  | installService => Except String Bool
  | startService => Except String Bool
  | testConnection _ => Bool
  | unfinished => Empty

/-- The interface of a session: its operations, and the type of each one's answer. -/
abbrev session : Interface := ⟨SessionOp, SessionOp.Res⟩

/-- The exceptions, with their texts. `setup_cancelled` is a `runtime_error` too. -/
inductive SessionExc where
  | runtimeError (text : String)
  | setupCancelled (text : String)
  deriving DecidableEq, Repr

/-- `what()`: the text of the exception, which the wrappers judge the error by. -/
def SessionExc.what : SessionExc → String
  | runtimeError text => text
  | setupCancelled text => text

/-- Programs of a session, which may end with one of its exceptions. -/
abbrev SessionM := Prog session SessionExc

/-- One operation as a program: it is performed, and its result is returned. -/
def ask (o : SessionOp) : SessionM o.Res := .call o .ret

/-- A loop that goes on behind the rounds of the model. -/
def unfinished {α : Type} : SessionM α := .call SessionOp.unfinished Empty.elim

/-- The value of a call, or its exception. -/
def valueOf {α : Type} : Except String α → SessionM α
  | .ok a => return a
  | .error text => .throw (.runtimeError text)

/-- The bytes of a text in UTF-8, as a `std::string` holds them. -/
def utf8 (text : String) : Bytes := text.toUTF8.data.toList

/-- The libraries that a session uses and whose code is not part of the repository: the printer and
the parser of JSON, its messages, and the decoder of base64. -/
structure SessionLibrary where
  text : JsonText
  messages : JsonMessages
  bio : Base64Bio
  /-- The parser, on the bytes of a token. -/
  parse : Bytes → Except String Json

end ThinrAgent
