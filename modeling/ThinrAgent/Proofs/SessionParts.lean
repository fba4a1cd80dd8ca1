import ThinrAgent.Installer.InteractiveSetup

/-!
# `ThinrAgent.Proofs.SessionParts`: what the parts of a session leave in the log

A rule `may log o` says when a session may perform `o` after `log`, the last event first.
`PlainRules` collects what the parts of `auth_manager` need of a rule and an invariant: the plain
operations and the requests that delete nothing are allowed and keep the invariant. For such a rule
the logins, the products and the alarm rules are a `PlainPart`: they keep the invariant, and nothing
else is known of them.

A provisioning request says more. Its end is in the log: `Created` when the server has created the
device, and `Refused` when it has answered 409.
-/

set_option autoImplicit false

namespace ThinrAgent

open Effects
open InteractiveSetup (sslQuestion)

/-- A log of a session: the operations it has performed with their results, the last one first. -/
abbrev SessionLog := List (Event session)

namespace SessionOp

/-- What the operation stores in `ssl_decision_`, and nothing for every other operation. -/
def stores : SessionOp → Option SslDecision
  | setSslDecision decision => some decision
  | _ => none

/-- The operation sends a request. Everything else a session does stays on the device. -/
def isHttp : SessionOp → Bool
  | http _ => true
  | _ => false

/-- The operations that only the end of a setup performs. -/
def isFinal : SessionOp → Bool
  | save _ => true
  | writeUpdateSection _ => true
  | installService => true
  | startService => true
  | _ => false

/-- An operation other than a request, the question about insecure connections, and those of the
beginning and the end. A rule allows the plain ones at any time. -/
def isPlain : SessionOp → Bool
  | http _ => false
  | choose prompt _ => prompt ≠ sslQuestion
  | setSslDecision _ => false
  | configExists => false
  | o => !o.isFinal

end SessionOp

/-- The request, when it deletes something. A form is never a deletion, because the client posts
forms only. -/
def HttpCall.deletes : HttpCall → Option JsonRequest
  | json request _ => if request.method = "DELETE" then some request else none
  | form _ => none

/-- The value of `ssl_decision_`: what has been stored in it last, and the initial one when nothing
has been. -/
def SessionLog.decision (log : SessionLog) : SslDecision :=
  (log.findSome? fun e => e.1.stores).getD .notAsked

/-- A read of `ssl_decision_` gives its value. Other results are free. -/
def memberRead (log : SessionLog) : (o : SessionOp) → o.Res → Prop
  | .sslDecision, decision => decision = SessionLog.decision log
  | _, _ => True

/-! ### Requests in the log -/

/-- The last event is the answer to the request, with or without verification. The response is
marked as a success, as the wrapper does with every response that arrives. -/
def Answered (call : Bool → HttpCall) (log : SessionLog) (response : HttpResponse) : Prop :=
  ∃ v res rest, log = ⟨.http (call v), .ok res⟩ :: rest ∧ response = { res with success := true }

/-- Two requests that differ in the verification only. It is what the fallback needs to know of a
request, whether its payload is JSON or a form. -/
structure Sends (request : Bool → SessionM HttpResponse) (call : Bool → HttpCall) : Prop where
  sends : ∀ v, request v = AuthManager.sendRequest (call v)
  verifySsl : ∀ v, (call v).verifySsl = v
  withVerify : ∀ v w, (call v).withVerify w = call w
  deletes : ∀ v w, (call v).deletes = (call w).deletes

/-- A request with a JSON payload is one, for the three methods that the client has. Another method
throws before anything is sent. -/
theorem sends_json {request : JsonRequest} (hmethod : request.method = "GET" ∨
    request.method = "POST" ∨ request.method = "DELETE") :
    Sends (AuthManager.makeHttpRequest request) (HttpCall.json request) where
  sends _ := if_pos hmethod
  verifySsl _ := rfl
  withVerify _ _ := rfl
  deletes _ _ := rfl

/-- A request with a form is one. Every flow posts its form, so the branch of another method does
not arise. -/
theorem sends_form (url : String) (formData : FormData) (authorization : String) :
    Sends (AuthManager.makeHttpRequestForm url "POST" formData authorization)
      (fun v => .form (formRequest url formData authorization v)) where
  sends _ := if_pos rfl
  verifySsl _ := rfl
  withVerify _ _ := rfl
  deletes _ _ := rfl

/-- The server has just answered the creation of the device with 409. Only then may a setup ask
whether to overwrite the device. -/
def Refused (log : SessionLog) (host username accessToken deviceId : String) : Prop :=
  ∃ verifySsl payload response rest,
    log = ⟨.http (.json (AuthManager.provisionRequest host username accessToken payload) verifySsl),
      .ok response⟩ :: rest ∧
    payload.find "device" = some (.str deviceId) ∧ response.statusCode = 409

/-- The last request has created the device of the credentials: what is saved was sent in the
request or came with the answer. Events without a request may stand in front of it. -/
inductive Created (library : SessionLibrary) (log : SessionLog) : DeviceCredentials → Prop
  | intro {between rest : SessionLog} {payload j : Json} {response : HttpResponse}
      {verifySsl : Bool} (host username accessToken deviceId deviceName credentials id : String)
      (hlog : log = between ++ ⟨.http (.json
        (AuthManager.provisionRequest host username accessToken payload) verifySsl),
        .ok response⟩ :: rest)
      (hquiet : ∀ x ∈ between, x.1.isHttp = false)
      (hstatus : response.statusCode = 200 ∨ response.statusCode = 201)
      (hdevice : payload.find "device" = some (.str deviceId))
      (hcredentials : payload.find "credentials" = some (.str credentials))
      (hparse : library.text.parse response.body = some j)
      (hid : AuthManager.provisionedId j deviceId = .ok id) :
      Created library log { host, deviceName, deviceId := id, deviceUser := username
                            deviceToken := utf8 credentials, version := "1.0.0" }

/-- What a provisioning request leaves in the log: a success has created the device of its
credentials, and a failure with 409 has been refused by the server. -/
def Provisioned (library : SessionLibrary) (host username accessToken deviceId : String)
    (log : SessionLog) (result : ProvisionResult) : Prop :=
  (result.success = true → Created library log result.credentials ∧
    result.credentials.isValid = true) ∧
  (result.success = false → result.statusCode = 409 →
    Refused log host username accessToken deviceId)

/-- The configuration has been saved, some time before. The save has succeeded: a failed one has an
exception as its result. -/
def Saved (log : SessionLog) : Prop :=
  ∃ saved, (⟨.save saved, (.ok () : Except String Unit)⟩ : Event session) ∈ log

section Frame
variable {library : SessionLibrary} {log : SessionLog} {credentials : DeviceCredentials}

/-- One more event changes the value of `ssl_decision_` when it stores one, and leaves it alone
otherwise. Proofs about logs rewrite with this and never look through a log. -/
@[simp] theorem decision_cons (x : Event session) :
    SessionLog.decision (x :: log) = x.1.stores.getD (SessionLog.decision log) := by
  rw [SessionLog.decision, List.findSome?_cons]
  cases x.1.stores <;> rfl

/-- A test that an event fails, and that all events before it fail, is failed by the whole log. -/
theorem forall_mem_cons_op {test : SessionOp → Bool} {x : Event session} (hx : test x.1 = false)
    (hlog : ∀ y ∈ log, test y.1 = false) : ∀ y ∈ x :: log, test y.1 = false := by
  intro y hy
  rcases List.mem_cons.mp hy with rfl | hy
  · exact hx
  · exact hlog y hy

/-- Events without a request keep the origin of credentials. The questions between the creation and
the save are such events. -/
theorem Created.cons (h : Created library log credentials) {x : Event session}
    (hx : x.1.isHttp = false) : Created library (x :: log) credentials := by
  cases h with
  | intro host username accessToken deviceId deviceName token id hlog hquiet hstatus hdevice
      hcredentials hparse hid =>
    exact .intro host username accessToken deviceId deviceName token id (congrArg (x :: ·) hlog)
      (forall_mem_cons_op hx hquiet) hstatus hdevice hcredentials hparse hid

/-- A device is created with verification: the field has its default, and the user's decision comes
into the credentials later. -/
theorem Created.verifySsl (h : Created library log credentials) :
    credentials.verifySsl = true := by
  cases h
  rfl

end Frame

/-! ### Rules with plain parts -/

/-- What the parts of `auth_manager` need of a rule and an invariant: plain operations and requests
that delete nothing are allowed and keep the invariant. -/
structure PlainRules (may : SessionLog → SessionOp → Prop) (Inv : SessionLog → Prop)
    (auth : AuthManager) : Prop where
  may_plain : ∀ {log : SessionLog} {o : SessionOp}, Inv log → o.isPlain = true → may log o
  cons_plain : ∀ {log : SessionLog} {o : SessionOp} (r : o.Res), Inv log → o.isPlain = true →
    Inv (⟨o, r⟩ :: log)
  request : ∀ (Pre : SessionLog → Prop) {request : JsonRequest},
    request.method = "GET" ∨ request.method = "POST" →
    (Protocol.byLog may memberRead).Keeps Inv Pre (auth.makeHttpRequestWithFallback request)
      (Answered (HttpCall.json request))
  form : ∀ (url : String) (formData : FormData) (authorization : String),
    (Protocol.byLog may memberRead).Keeps Inv (fun _ => True)
      (auth.makeHttpRequestFormWithFallback url "POST" formData authorization) fun _ _ => True

/-- A program that needs nothing beyond the invariant, and promises nothing. The logins, the
products and the alarm rules are used for their effect on the server alone. -/
abbrev PlainPart (may : SessionLog → SessionOp → Prop) (Inv : SessionLog → Prop) {α : Type}
    (p : SessionM α) : Prop :=
  (Protocol.byLog may memberRead).Keeps Inv (fun _ => True) p fun _ _ => True

section Plain
variable {may : SessionLog → SessionOp → Prop} {Inv Pre : SessionLog → Prop} {auth : AuthManager}
  {α β : Type}

/-- A value performs nothing, so it is a plain part of every session. -/
theorem PlainPart.ret (a : α) : PlainPart may Inv (.ret a) :=
  Protocol.Keeps.ret fun _ _ _ => trivial

/-- An exception performs nothing. The invariant holds where a program throws, so that a setup that
is cut short is covered too. -/
theorem PlainPart.throw (e : SessionExc) : PlainPart may Inv (.throw e : SessionM α) :=
  Protocol.Keeps.throw

/-- Two parts one after the other are a part. -/
theorem PlainPart.bind {p : SessionM α} {f : α → SessionM β} (hp : PlainPart may Inv p)
    (hf : ∀ a, PlainPart may Inv (f a)) : PlainPart may Inv (p >>= f) := Protocol.Keeps.bind hp hf

/-- A choice between two parts is one, whichever way it goes. What the condition says is not
needed. -/
theorem PlainPart.ite {c : Prop} [Decidable c] {p q : SessionM α} (hp : PlainPart may Inv p)
    (hq : PlainPart may Inv q) : PlainPart may Inv (if c then p else q) :=
  Protocol.Keeps.ite (fun _ => hp) fun _ => hq

/-- A part stays one when its exceptions are caught by parts. -/
theorem PlainPart.tryCatch {p : SessionM α} {f : SessionExc → SessionM α} (hp : PlainPart may Inv p)
    (hf : ∀ e, PlainPart may Inv (f e)) : PlainPart may Inv (p.tryCatch f) :=
  Protocol.Keeps.tryCatch hp hf

/-- A value of a library call, or its exception, performs nothing. -/
theorem PlainPart.valueOf (a : Except String α) : PlainPart may Inv (ThinrAgent.valueOf a) := by
  cases a with
  | ok a => exact .ret a
  | error text => exact .throw _

/-- A value read from a response, or the exception of the JSON library, performs nothing. -/
theorem PlainPart.accessOf (auth : AuthManager) (j : Json) (a : Except JsonError α) :
    PlainPart may Inv (auth.accessOf j a) := by
  cases a with
  | ok a => exact .ret a
  | error e =>
    cases e
    exact .throw _

/-- The claims of a token are read on the device, without a request. -/
theorem plain_decodeToken (auth : AuthManager) (token : String) :
    PlainPart may Inv (auth.decodeToken token) := .valueOf _

/-- The exceptions of a request become answers. What the request promises of its response is given
up: the flows that catch its exceptions promise nothing. -/
theorem keeps_attempt {request : SessionM HttpResponse} {Post : SessionLog → HttpResponse → Prop}
    (hrequest : (Protocol.byLog may memberRead).Keeps Inv Pre request Post) :
    (Protocol.byLog may memberRead).Keeps Inv Pre (AuthManager.attempt request) fun _ _ => True :=
  .tryCatch (hrequest.bind fun _ => .ret fun _ _ _ => trivial) fun _ => .ret fun _ _ _ => trivial

variable (h : PlainRules may Inv auth)
include h

/-- A plain operation stands in front of the log it was performed after. What is known of that log
is known of the rest behind the event. -/
theorem PlainRules.keeps_ask (o : SessionOp) (ho : o.isPlain = true) :
    (Protocol.byLog may memberRead).Keeps Inv Pre (ask o) fun log r =>
      ∃ before, log = ⟨o, r⟩ :: before ∧ Pre before := by
  refine .single (fun log hinv _ => h.may_plain hinv ho) fun log r hinv hpre _ => ?_
  exact ⟨h.cons_plain r hinv ho, log, rfl, hpre⟩

/-- A plain operation from any precondition. Most questions are asked for their answer, which may be
any. -/
theorem PlainRules.ask {o : SessionOp} (ho : o.isPlain = true) :
    (Protocol.byLog may memberRead).Keeps Inv Pre (ThinrAgent.ask o) fun _ _ => True :=
  (h.keeps_ask o ho).plain

/-- A plain operation is a part by itself. -/
theorem PlainRules.plain_ask {o : SessionOp} (ho : o.isPlain = true) :
    PlainPart may Inv (ThinrAgent.ask o) := h.ask ho

/-- A loop that goes on has no end, so it may promise anything at its end. -/
theorem PlainRules.unfinished {Post : SessionLog → α → Prop} :
    (Protocol.byLog may memberRead).Keeps Inv Pre (ThinrAgent.unfinished : SessionM α) Post :=
  fun _ hinv _ => ⟨h.may_plain hinv rfl, fun r => r.elim⟩

/-- A request that reads or creates something is a part, once its exceptions are caught. -/
theorem PlainRules.attempt {request : JsonRequest}
    (hmethod : request.method = "GET" ∨ request.method = "POST") :
    PlainPart may Inv (AuthManager.attempt (auth.makeHttpRequestWithFallback request)) :=
  keeps_attempt (h.request _ hmethod)

/-- A form that is posted is a part, once its exceptions are caught. -/
theorem PlainRules.attemptForm (url : String) (formData : FormData) (authorization : String) :
    PlainPart may Inv (AuthManager.attempt
      (auth.makeHttpRequestFormWithFallback url "POST" formData authorization)) :=
  keeps_attempt (h.form url formData authorization)

/-- The login with a password posts one form and reads the answer. -/
theorem plain_oauthPasswordFlow (host username password : String) :
    PlainPart may Inv (auth.oauthPasswordFlow host username password) := by
  refine .bind (h.attemptForm _ _ _) fun answer => ?_
  cases answer with
  | error e => exact .ret _
  | ok response => exact .ite (.ret _) (.ret _)

/-- The login of a device begins with one form as well. -/
theorem plain_startDeviceFlow (host : String) (clientId : Bytes) :
    PlainPart may Inv (auth.startDeviceFlow host clientId) := by
  refine .bind (h.attemptForm _ _ _) fun answer => ?_
  cases answer with
  | error e => exact .ret _
  | ok response => exact .ret _

/-- A poll reads the clock, posts a form and sleeps, round by round. The induction is on the rounds
of the model, behind which it goes on. -/
theorem plain_pollDeviceToken (host : String) (clientId deviceCode : Bytes)
    (timeout interval : Int32) (fuel : Nat) :
    PlainPart may Inv (auth.pollDeviceToken host clientId deviceCode timeout interval fuel) := by
  induction fuel with
  | zero => exact h.unfinished
  | succ fuel ih =>
    refine .bind (h.ask rfl) fun elapsed => .ite (.ret _) (.bind (h.attemptForm _ _ _) ?_)
    intro answer
    cases pollVerdict auth.library.text auth.library.messages interval answer with
    | finish result => exact .ret _
    | wait seconds => exact .bind (h.ask rfl) fun _ => ih

/-- The characters of a credential are drawn one by one, each at random. The induction is on how
many are left. -/
theorem plain_drawChars (n : Nat) (credentials : List Char) :
    PlainPart may Inv (AuthManager.drawChars n credentials) := by
  induction n generalizing credentials with
  | zero => exact .ret _
  | succ n ih => exact .bind (h.ask rfl) fun c => ih _

/-- New credentials are sixteen characters, drawn on the device. -/
theorem plain_generateDeviceCredentials : PlainPart may Inv AuthManager.generateDeviceCredentials :=
  .bind (plain_drawChars h 16 []) fun _ => .ret _

/-- The products are listed with one request. A listing that is no JSON counts as a failure. -/
theorem plain_listProducts (host username accessToken : String) :
    PlainPart may Inv (auth.listProducts host username accessToken) := by
  refine .bind (h.attempt (.inl rfl)) fun answer => ?_
  cases answer with
  | error e => exact .ret _
  | ok response =>
    refine .ite (.ret _) ?_
    cases auth.library.text.parse response.body with
    | none => exact .ret _
    | some products => exact .ret _

/-- A product is created with one request, which deletes nothing. -/
theorem plain_createProduct (host username accessToken : String) (productData : Json) :
    PlainPart may Inv (auth.createProduct host username accessToken productData) := by
  refine .bind (h.attempt (.inr rfl)) fun answer => ?_
  cases answer with
  | error e => exact .ret _
  | ok response => exact .ite (.ret _) (.ret _)

/-- Each missing rule is created with one request, and the others cost none. The induction follows
the list of the default rules. -/
theorem plain_seedDefaults (account : AlarmAccount) (rules : List AlarmRule)
    (existing : List String) (result : EnsureAlarmsResult) :
    PlainPart may Inv (auth.seedDefaults account rules existing result) := by
  induction rules generalizing result with
  | nil => exact .ret _
  | cons ruleDef rest ih =>
    refine .ite (ih _) (.ite (ih _) (.bind ?_ fun created => ih _))
    exact .bind (h.attempt (.inr rfl)) fun _ => .ret _

/-- Without `force` no rule is deleted, so seeding is plain: it lists the rules and creates what is
missing. A setup calls it so, and only so. -/
theorem plain_ensureDefaultAlarms (account : AlarmAccount) :
    PlainPart may Inv (auth.ensureDefaultAlarms account false) := by
  refine .bind (.bind (h.attempt (.inl rfl)) fun _ => .ret _) fun listResult => ?_
  exact .ite (.ret _) (.bind (.accessOf _ _ _) fun existing => plain_seedDefaults h _ _ _ _)

end Plain

/-! ### Provisioning -/

section Provision

/-- The request for a device names the device, with a product in the payload or without. -/
theorem find_device_devicePayload (deviceId credentials deviceName osDescription product : String) :
    (AuthManager.devicePayload deviceId credentials deviceName osDescription product).find
      "device" = some (.str deviceId) := by
  unfold AuthManager.devicePayload
  by_cases hproduct : product = ""
  · rw [if_pos hproduct]
    rfl
  · rw [if_neg hproduct, Json.find_set_ne _ _ (by decide)]
    rfl

/-- The request for a device carries its credentials, with a product in the payload or without. -/
theorem find_credentials_devicePayload
    (deviceId credentials deviceName osDescription product : String) :
    (AuthManager.devicePayload deviceId credentials deviceName osDescription product).find
      "credentials" = some (.str credentials) := by
  unfold AuthManager.devicePayload
  by_cases hproduct : product = ""
  · rw [if_pos hproduct]
    rfl
  · rw [if_neg hproduct, Json.find_set_ne _ _ (by decide)]
    rfl

variable {may : SessionLog → SessionOp → Prop} {Inv : SessionLog → Prop} {auth : AuthManager}

/-- A provisioning request under such a rule: the log says at the end where the credentials come
from, or that the server has refused. The answer is the last event, and nothing is asked after
it. -/
theorem keeps_provisionDevice (h : PlainRules may Inv auth)
    (host username deviceId deviceName accessToken product : String) :
    (Protocol.byLog may memberRead).Keeps Inv (fun _ => True)
      (auth.provisionDevice host username deviceId deviceName accessToken product)
      (Provisioned auth.library host username accessToken deviceId) := by
  refine .bind (plain_generateDeviceCredentials h).weaken fun deviceCredentials => ?_
  refine .bind (h.ask rfl) fun description => ?_
  refine .bind (h.request _ (.inr rfl)) fun response => ?_
  -- From here on nothing is asked.
  intro log hinv hanswered
  obtain ⟨v, res, rest, rfl, hresponse⟩ := hanswered
  subst hresponse
  have hdevice :=
    find_device_devicePayload deviceId deviceCredentials deviceName description product
  have hcredentials :=
    find_credentials_devicePayload deviceId deviceCredentials deviceName description product
  split
  · next hfailed =>
    refine ⟨hinv, fun result hresult => ?_⟩
    cases hresult
    exact ⟨fun h => (by cases h), fun _ h409 => ⟨v, _, res, rest, rfl, hdevice, h409⟩⟩
  · next hstatus =>
    have hcreated : res.statusCode = 200 ∨ res.statusCode = 201 := by
      simp only [Bool.not_true, Bool.false_or, Bool.and_eq_true, decide_eq_true_eq, not_and,
        not_not] at hstatus
      by_cases h : res.statusCode = 200
      · exact .inl h
      · exact .inr (hstatus h)
    unfold AuthManager.parseResponse
    cases hparse : auth.library.text.parse res.body with
    | none => exact ⟨hinv, fun _ h => by cases h⟩
    | some j =>
      show (Protocol.byLog may memberRead).Follows _ (auth.accessOf j
        (AuthManager.provisionedId j deviceId) >>= _) _
      cases hid : AuthManager.provisionedId j deviceId with
      | error e =>
        cases e
        exact ⟨hinv, fun _ h => by cases h⟩
      | ok id =>
        show (Protocol.byLog may memberRead).Follows _ (if _ then _ else _) _
        split
        · refine ⟨hinv, fun result hresult => ?_⟩
          cases hresult
          refine ⟨fun h => (by cases h), fun _ h409 => ?_⟩
          have h409 : res.statusCode = 409 := h409
          omega
        · next hvalid =>
          refine ⟨hinv, fun result hresult => ?_⟩
          cases hresult
          refine ⟨fun _ => ⟨?_, by simpa using hvalid⟩, fun h => (by cases h)⟩
          exact .intro host username accessToken deviceId deviceName deviceCredentials id
            (show _ = ([] : SessionLog) ++ _ from rfl) (fun _ h => by cases h) hcreated hdevice
            hcredentials hparse hid

end Provision

/-! ### Sample sessions -/

section Sample

/-- The libraries of the sample sessions. No token is decoded in them, so the parser of tokens may
fail. -/
def sampleLibrary : SessionLibrary where
  text := .compact
  messages := ⟨fun _ => "", fun _ => ""⟩
  bio := .strict
  parse := fun _ => .error ""

/-- An environment: how the server answers, and which method to authenticate the user selects. The
user accepts insecure connections and takes the second option of every other menu. -/
def sampleReply (server : HttpCall → HttpAnswer) (method : Int) (log : SessionLog) :
    (o : SessionOp) → Option o.Res
  | .http call => some (server call)
  | .choose prompt options =>
    let n := if prompt = sslQuestion then 1
      else if options = InteractiveSetup.authMethodOptions then method else 2
    if h : 1 ≤ n ∧ n ≤ options.length then some ⟨n, h⟩ else none
  | .readLine _ => some "x"
  | .readPassword _ => some "x"
  | .isInteractive => some true
  | .drawChar chars =>
    match chars with
    | [] => none
    | c :: _ => some ⟨c, List.mem_cons_self⟩
  | .osDescription => some ""
  | .hostName => some none
  | .generateDeviceId => some "d"
  | .elapsed => some 0
  | .sleep _ => some ()
  | .sslDecision => some (SessionLog.decision log)
  | .setSslDecision _ => some ()
  | .configExists => some false
  | .save _ => some (.ok ())
  | .readUpdateSection => some .null
  | .writeUpdateSection _ => some (.ok ())
  | .installService => some (.ok true)
  | .startService => some (.ok true)
  | .testConnection _ => some true
  | .unfinished => none

/-- The first events of a session in such an environment. A session that is over before leaves a
shorter log. -/
def sampleLog {α : Type} (server : HttpCall → HttpAnswer) (method : Int) (n : Nat)
    (p : SessionM α) : SessionLog := (converse (sampleReply server method) n [] p).1

/-- The log of a sample is the log of a run: each result is one that is possible after the events
before it. -/
theorem sampleSession {α : Type} (server : HttpCall → HttpAnswer) (method : Int) (n : Nat)
    (p : SessionM α) : ∃ q, Runs memberRead p (sampleLog server method n p) q := by
  refine ⟨_, runs_converse (fun log o r h => ?_) n .start⟩
  cases o with
  | sslDecision => exact (Option.some.inj h).symm
  | _ => trivial

/-- A server that accepts the login and has the device already. -/
def refusingServer : HttpCall → HttpAnswer
  | .form _ => .ok { statusCode := 200, body := "\x7b\"access_token\":\"t\"\x7d" }
  | .json request _ =>
    if request.method = "GET" then .error "" else .ok { statusCode := 409, body := "" }

/-- The request that has been sent last, when nothing follows it. -/
def lastCall : SessionLog → Option HttpCall
  | ⟨.http call, _⟩ :: _ => some call
  | _ => none

/-- What has been saved last, when nothing follows it. -/
def lastSaved : SessionLog → Option DeviceCredentials
  | ⟨.save saved, _⟩ :: _ => some saved
  | _ => none

/-- A test on the last request, decided by evaluation, gives the request as the general theorems
take it. -/
theorem exists_of_lastCall {log : SessionLog} {test : HttpCall → Bool}
    (h : (lastCall log).any test = true) :
    ∃ call r before, log = ⟨.http call, r⟩ :: before ∧ test call = true := by
  rcases log with _ | ⟨⟨o, r⟩, before⟩
  · cases h
  · cases o with
    | http call => exact ⟨call, r, before, rfl, h⟩
    | _ => cases h

/-- The same for what has been saved last. -/
theorem exists_of_lastSaved {log : SessionLog} (h : (lastSaved log).isSome = true) :
    ∃ saved r before, log = ⟨.save saved, r⟩ :: before := by
  rcases log with _ | ⟨⟨o, r⟩, before⟩
  · cases h
  · cases o with
    | save saved => exact ⟨saved, r, before, rfl⟩
    | _ => cases h

end Sample

end ThinrAgent
