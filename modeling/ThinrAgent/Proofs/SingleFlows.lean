import ThinrAgent.Proofs.SessionParts

/-!
# `ThinrAgent.Proofs.SingleFlows`: a flow of its own and the same flow in a session

`Auth.DeviceFlow` and `Auth.AlarmRules` take the polling for a token and the seeding of the alarm
rules as functions of what the server answers. `Auth.AuthManager` has the same flows as programs of
a session, where each request is a step. The theorems below say that the two agree: a program that
talks to a server ends with the result of the function, and leaves the server as the function says.

A `Counterpart` is the other side of such a program, the server and the clock. It is a protocol
without obligations, and `follows_attempt` is its rule for one request of a wrapper, with the repeat
without verification when the callback accepts it. The results about the flows follow the programs
from request to request:

* `startDeviceFlow_single` and `pollDeviceToken_single`, the login of a device.
* `ensureDefaultAlarms_single`, the seeding of the rules.
-/

set_option autoImplicit false

namespace ThinrAgent

open Effects

/-! ### The other side of a session -/

/-- The server and the clock a session talks to, with a state of their own. What the server answers
may depend on the state, but a request does not change the answers to the next one. -/
structure Counterpart (σ : Type) where
  client : σ → HttpCall → HttpAnswer
  serve : σ → HttpCall → σ
  elapsed : σ → Int
  sleep : σ → Int → σ
  client_serve : ∀ s call, client (serve s call) = client s

/-- What `make_http_request` and `make_http_request_form` make of an answer of the client: a
response is marked as a success, and a failure gets a prefix. -/
def requestAnswer : HttpAnswer → HttpAnswer
  | .ok res => .ok { res with success := true }
  | .error e => .error ("HTTP request failed: " ++ e)

/-- The wrapper sends the request again without verification: the first answer is an error of the
secure connection, and the callback accepts it. -/
def repeats (callback : Option (String → Bool)) (first : HttpAnswer) : Bool :=
  match requestAnswer first with
  | .ok _ => false
  | .error e => classifyException e = .sslError && callback.any fun accepts => accepts e

/-- The answer of a wrapper, for a client that answers by `answer true` with verification and by
`answer false` without. -/
def fallbackAnswer (callback : Option (String → Bool)) (answer : Bool → HttpAnswer) : HttpAnswer :=
  match requestAnswer (answer true) with
  | .ok response => .ok response
  | .error e =>
    if classifyException e ≠ .sslError then .error e
    else
      match callback with
      | some accepts =>
        if accepts e then requestAnswer (answer false)
        else .error ("SSL verification failed and insecure connection was not allowed: " ++ e)
      | none => .error e

/-- The wrapper of `Auth.FormRequest` is a wrapper in this sense. The method is `POST` in every
flow, so the branch of an unsupported method does not show up. -/
theorem makeHttpRequestFormWithFallback_eq (client : FormRequest → HttpAnswer)
    (callback : Option (String → Bool)) (url : String) (formData : FormData)
    (authorization : String) :
    makeHttpRequestFormWithFallback client callback url "POST" formData authorization =
      fallbackAnswer callback fun v => client (formRequest url formData authorization v) := by
  have hform (v : Bool) : makeHttpRequestForm client url "POST" formData authorization v =
      requestAnswer (client (formRequest url formData authorization v)) := by
    unfold makeHttpRequestForm requestAnswer
    rw [if_pos rfl]
    cases client (formRequest url formData authorization v) with
    | ok res => rfl
    | error e => rfl
  unfold makeHttpRequestFormWithFallback fallbackAnswer
  rw [hform true, hform false]
  rfl

/-- Whatever way a response has come, it is marked as a success. -/
theorem success_fallbackAnswer {callback : Option (String → Bool)} {answer : Bool → HttpAnswer}
    {response : HttpResponse} (h : fallbackAnswer callback answer = .ok response) :
    response.success = true := by
  have hrequest (v : Bool) (h : requestAnswer (answer v) = .ok response) :
      response.success = true := by
    cases hv : answer v with
    | ok res =>
      rw [hv] at h
      cases h
      rfl
    | error e =>
      rw [hv] at h
      cases h
  -- A response is the one of the first request or the one of the repeat.
  unfold fallbackAnswer at h
  split at h
  · next hfirst =>
    cases h
    exact hrequest true hfirst
  · split at h
    · cases h
    · split at h
      · split at h
        · exact hrequest false h
        · cases h
      · cases h

namespace Counterpart

variable {σ : Type} (c : Counterpart σ)

/-- The results of the operations. Only the server and the clock are fixed; the user, the random
numbers and the system may give any result. -/
def gives (s : σ) : (o : SessionOp) → o.Res → Prop
  | .http call, answer => answer = c.client s call
  | .elapsed, n => n = c.elapsed s
  | _, _ => True

/-- The other side after an operation: a request is answered by the server, and a pause moves its
clock. The operations on the device do not reach it. -/
def next (s : σ) : SessionOp → σ
  | .http call => c.serve s call
  | .sleep seconds => c.sleep s seconds
  | _ => s

/-- The protocol that allows everything. What a program follows in it is a statement about the end
of the program and of its counterpart. -/
def protocol : Protocol session where
  State := σ
  may _ _ := True
  can := c.gives
  next s o _ := c.next s o

/-- The state behind a request of a wrapper, which the server may get twice. -/
def afterRequest (callback : Option (String → Bool)) (s : σ) (call : Bool → HttpCall) : σ :=
  if repeats callback (c.client s (call true)) then c.serve (c.serve s (call true)) (call false)
  else c.serve s (call true)

variable {c} {auth : AuthManager} {callback : Option (String → Bool)}

/-- A server that a request leaves as it is stays so when it gets the request twice. -/
theorem afterRequest_of_serve {s : σ} {call : Bool → HttpCall} (h : ∀ v, c.serve s (call v) = s) :
    c.afterRequest callback s call = s := by
  unfold afterRequest
  rw [h true, h false, ite_self]

/-- One request, with its answer as the program goes on with it. -/
theorem follows_sendRequest {s : σ} {call : HttpCall}
    {Q : σ → Except SessionExc HttpResponse → Prop}
    (h : Q (c.serve s call) ((requestAnswer (c.client s call)).mapError SessionExc.runtimeError)) :
    c.protocol.Follows s (AuthManager.sendRequest call) Q := by
  refine ⟨trivial, ?_⟩
  intro answer (hanswer : answer = c.client s call)
  rw [← hanswer] at h
  cases answer with
  | ok res => exact h
  | error e => exact h

/-- A request of a wrapper. The callback of the session is one that decides by the text of the
exception and asks nothing. -/
theorem follows_withFallback {s : σ} {request : Bool → SessionM HttpResponse}
    {call : Bool → HttpCall}
    (hcallback : auth.sslVerificationCallback = callback.map fun accepts e => .ret (accepts e))
    (hsends : Sends request call) {Q : σ → Except SessionExc HttpResponse → Prop}
    (h : Q (c.afterRequest callback s call)
      ((fallbackAnswer callback fun v => c.client s (call v)).mapError SessionExc.runtimeError)) :
    c.protocol.Follows s (auth.withFallback request) Q := by
  unfold AuthManager.withFallback
  rw [hsends.sends true, hcallback]
  refine .tryCatch (follows_sendRequest ?_)
  unfold afterRequest repeats fallbackAnswer at h
  -- The first request decides whether there is a second one: it has failed for the secure
  -- connection, and the callback accepts it.
  cases hfirst : requestAnswer (c.client s (call true)) with
  | ok response =>
    rw [hfirst] at h
    exact h
  | error e =>
    simp only [hfirst] at h
    show c.protocol.Follows (c.serve s (call true))
      (if classifyException e ≠ .sslError then _ else _) _
    by_cases hssl : classifyException e = .sslError
    · rw [if_neg (not_not.mpr hssl)]
      cases callback with
      | none =>
        simp only [hssl] at h
        exact h
      | some accepts =>
        show c.protocol.Follows (c.serve s (call true)) (if accepts e then _ else _) _
        simp only [hssl] at h
        cases haccepts : accepts e with
        | false =>
          simp only [haccepts, Option.any_some] at h
          exact h
        | true =>
          simp only [haccepts, Option.any_some] at h
          rw [if_pos rfl, hsends.sends false]
          exact follows_sendRequest (by rw [c.client_serve]; exact h)
    · rw [if_pos hssl, decide_eq_false hssl] at h
      rw [if_pos hssl]
      exact h

/-- A request whose exception is caught and goes on as an answer. -/
theorem follows_attempt {s : σ} {request : SessionM HttpResponse}
    {Q : σ → Except SessionExc HttpAnswer → Prop}
    (h : c.protocol.Follows s request fun t r => Q t (.ok (r.mapError SessionExc.what))) :
    c.protocol.Follows s (AuthManager.attempt request) Q := by
  refine .tryCatch (.bind (h.mono ?_))
  intro t r hr
  cases r with
  | ok response => exact hr
  | error e => exact hr

/-- The answer that a flow of a session goes on with. -/
theorem follows_answer {s : σ} {request : Bool → SessionM HttpResponse} {call : Bool → HttpCall}
    (hcallback : auth.sslVerificationCallback = callback.map fun accepts e => .ret (accepts e))
    (hsends : Sends request call) :
    c.protocol.Follows s (AuthManager.attempt (auth.withFallback request)) fun t r =>
      t = c.afterRequest callback s call ∧
        r = .ok (fallbackAnswer callback fun v => c.client s (call v)) := by
  refine follows_attempt (follows_withFallback hcallback hsends ⟨rfl, ?_⟩)
  cases fallbackAnswer callback fun v => c.client s (call v) with
  | ok response => rfl
  | error e => rfl

end Counterpart

/-! ### The login of a device -/

section Login
variable {σ : Type} {c : Counterpart σ} {auth : AuthManager} {callback : Option (String → Bool)}

/-- A client whose answer is known to be `response` stands for any client whose wrapper answers so:
the flow reads its answers through the wrapper only. -/
theorem startDeviceFlow_of_answer {lib : JsonText} {what : JsonMessages}
    {client : FormRequest → HttpAnswer} {host : String} {clientId : Bytes} {response : HttpResponse}
    (h : makeHttpRequestFormWithFallback client callback
      (ensureHttps host ++ "/oauth/device/authorize")
      "POST" ⟨[(ascii "client_id", clientId)], List.nodup_singleton _⟩ "" = .ok response) :
    startDeviceFlow lib what client callback host clientId =
      startDeviceFlow lib what (fun _ => .ok response) none host clientId := by
  have hsuccess : response.success = true := success_makeHttpRequestFormWithFallback h
  have hsame : makeHttpRequestFormWithFallback (fun _ => .ok response) none
      (ensureHttps host ++ "/oauth/device/authorize") "POST"
      ⟨[(ascii "client_id", clientId)], List.nodup_singleton _⟩ "" = .ok response := by
    show Except.ok { response with success := true } = Except.ok response
    rw [← hsuccess]
  unfold startDeviceFlow
  simp only [h, hsame]

/-- The authorization of a device in a session has the result of the function, for the client the
session talks to. -/
theorem startDeviceFlow_single
    (hcallback : auth.sslVerificationCallback = callback.map fun accepts e => .ret (accepts e))
    (host : String) (clientId : Bytes) (s : σ) :
    c.protocol.Follows s (auth.startDeviceFlow host clientId) fun _ r =>
      r = .ok (startDeviceFlow auth.library.text auth.library.messages
        (fun form => c.client s (.form form)) callback host clientId) := by
  unfold AuthManager.startDeviceFlow
  refine .bind ((Counterpart.follows_answer hcallback (sends_form _ _ _)).mono ?_)
  rintro t r ⟨-, rfl⟩
  rw [← makeHttpRequestFormWithFallback_eq fun form => c.client s (.form form)]
  cases hanswer : makeHttpRequestFormWithFallback (fun form => c.client s (.form form)) callback
      (ensureHttps host ++ "/oauth/device/authorize") "POST"
      ⟨[(ascii "client_id", clientId)], List.nodup_singleton _⟩ "" with
  | error e =>
    unfold startDeviceFlow
    simp only [hanswer]
    rfl
  | ok response =>
    rw [startDeviceFlow_of_answer hanswer]
    rfl

end Login

/-- A poll on its way: the rounds that are left, and the seconds it has slept between the ones that
are over. -/
structure PollState where
  rounds : List PollRound
  slept : List Int := []

/-- The token endpoint and the clock of a poll, by rounds. A round gives way to the next one when
the poll sleeps. -/
def pollCounterpart : Counterpart PollState where
  client s call :=
    match s.rounds, call with
    | round :: _, .form form => round.client form
    | _, _ => .error ""
  serve s _ := s
  elapsed s := (s.rounds.head?.map PollRound.elapsed).getD 0
  sleep s seconds := { rounds := s.rounds.tail, slept := s.slept ++ [seconds] }
  client_serve _ _ := rfl

/-- The sleeps among the events of a poll. -/
def TokenEvent.slept : TokenEvent → Option Int
  | request _ => none
  | sleep seconds => some seconds

section Poll
variable {auth : AuthManager} {p : PollRequest}

/-- The request of a round has the answer of the round, whether or not it is sent twice. -/
theorem follows_roundAnswer
    (hcallback : auth.sslVerificationCallback = p.callback.map fun accepts e => .ret (accepts e))
    (round : PollRound) (rest : List PollRound) (slept : List Int) :
    pollCounterpart.protocol.Follows ⟨round :: rest, slept⟩
      (AuthManager.attempt (auth.makeHttpRequestFormWithFallback
        (ensureHttps p.host ++ "/oauth/token") "POST" (deviceTokenForm p.clientId p.deviceCode) ""))
      fun t r => t = ⟨round :: rest, slept⟩ ∧ r = .ok (round.answer p) := by
  refine (Counterpart.follows_answer hcallback (sends_form _ _ _)).mono ?_
  rintro t r ⟨rfl, rfl⟩
  have hanswer : round.answer p = fallbackAnswer p.callback fun v => round.client
      (formRequest (ensureHttps p.host ++ "/oauth/token")
        (deviceTokenForm p.clientId p.deviceCode) "" v) :=
    makeHttpRequestFormWithFallback_eq _ _ _ _ _
  rw [hanswer]
  exact ⟨Counterpart.afterRequest_of_serve fun _ => rfl, rfl⟩

/-- The poll of a session over the rounds of the function ends with its result, and has slept as the
function says. A poll that is given fewer rounds than the server has goes on behind them, as one of
the function does behind its list. The induction is on the rounds of the session. -/
theorem pollDeviceToken_single
    (hcallback : auth.sslVerificationCallback = p.callback.map fun accepts e => .ret (accepts e))
    {fuel : Nat} {s : PollState} (hfuel : fuel ≤ s.rounds.length) :
    pollCounterpart.protocol.Follows s
      (auth.pollDeviceToken p.host p.clientId p.deviceCode p.timeout p.interval fuel) fun t r =>
      let poll := pollDeviceToken auth.library.text auth.library.messages p s.rounds
      ∃ result, r = .ok result ∧ poll.2 = some result ∧
        t.slept = s.slept ++ poll.1.filterMap TokenEvent.slept := by
  induction fuel generalizing s with
  | zero => exact ⟨trivial, fun r => r.elim⟩
  | succ fuel ih =>
    obtain ⟨rounds, slept⟩ := s
    cases rounds with
    | nil => exact absurd hfuel (by simp)
    | cons round rest =>
      refine ⟨trivial, ?_⟩
      intro elapsed (helapsed : elapsed = round.elapsed)
      subst helapsed
      show pollCounterpart.protocol.Follows _ (if _ then _ else _) _
      rw [pollDeviceToken]
      unfold PollRound.late
      -- The late check comes before the request.
      by_cases hlate : p.timeout.toInt * 10 ^ 9 < round.elapsed
      · simp only [hlate]
        exact ⟨_, rfl, rfl, (List.append_nil slept).symm⟩
      · simp only [hlate]
        refine .bind ((follows_roundAnswer hcallback round rest slept).mono ?_)
        rintro t r ⟨rfl, rfl⟩
        cases hverdict : pollVerdict auth.library.text auth.library.messages p.interval
            (round.answer p) with
        | finish result =>
          simp only [hverdict]
          exact ⟨_, rfl, rfl, (List.append_nil slept).symm⟩
        | wait seconds =>
          simp only [hverdict]
          refine ⟨trivial, ?_⟩
          intro _ _
          -- The round is over, and the rest of the rounds is left to the rest of the poll.
          have hrest : fuel ≤ rest.length := Nat.le_of_succ_le_succ hfuel
          refine (ih (s := ⟨rest, slept ++ [seconds]⟩) hrest).mono ?_
          rintro t r ⟨result, hr, hresult, hslept⟩
          refine ⟨result, hr, hresult, ?_⟩
          rw [hslept, List.append_assoc]
          rfl

end Poll

/-! ### The alarm rules -/

/-- The rule that the server makes of a definition, which it lists under the name in it. -/
def ruleOf (definition : Json) : Option AlarmRule :=
  match h : definition.value Json.getString "rule" "" with
  | .ok id => some ⟨id, definition, h⟩
  | .error _ => none

/-- A rule is found in the definition that is sent for it. -/
theorem ruleOf_definition (rule : AlarmRule) : ruleOf rule.definition = some rule := by
  obtain ⟨id, definition, named⟩ := rule
  unfold ruleOf
  split
  · next id' h =>
    rw [named] at h
    cases h
    rfl
  · next h =>
    rw [named] at h
    cases h

section Server
variable (account : AlarmAccount) (client : HttpCall → HttpAnswer)
  (executes : JsonRequest → Bool → Bool) (callback : Option (String → Bool))

/-- The rules behind a request that the server carries out: a creation replaces the rule of the same
name, and a deletion takes the rule away that has the URL. -/
def carryOut (request : JsonRequest) (rules : List AlarmRule) : List AlarmRule :=
  if request.method = "POST" then
    match ruleOf request.payload with
    | some ruleDef => rules.filter (fun r => r.id ≠ ruleDef.id) ++ [ruleDef]
    | none => rules
  else if request.method = "DELETE" then
    rules.filter fun r => (account.deleteRequest r.id).url ≠ request.url
  else rules

/-- A server with the alarm rules of an account. It answers by `client`, and carries out a request
as `executes` says, with `verify_ssl` or without. -/
def alarmCounterpart : Counterpart (List AlarmRule) where
  client _ := client
  serve rules call :=
    match call with
    | .json request verifySsl =>
      if executes request verifySsl then carryOut account request rules else rules
    | .form _ => rules
  elapsed _ := 0
  sleep rules _ := rules
  client_serve _ _ := rfl

/-- What the function of `Auth.AlarmRules` takes of such a server: the answers of the wrapper, and
the requests that are carried out in one of its attempts. -/
def wrappedRequests : AlarmRequests where
  answer request := fallbackAnswer callback fun v => client (.json request v)
  executed request := executes request true ||
    (repeats callback (client (.json request true)) && executes request false)

variable {account client executes callback}

/-- Two attempts leave the rules as one does, for a request that does nothing the second time. -/
theorem afterRequest_alarm {request : JsonRequest} {rules : List AlarmRule}
    (htwice : carryOut account request (carryOut account request rules) =
      carryOut account request rules) :
    (alarmCounterpart account client executes).afterRequest callback rules (.json request) =
      if (wrappedRequests client executes callback).executed request
        then carryOut account request rules else rules := by
  have hserve (v : Bool) (rules : List AlarmRule) :
      (alarmCounterpart account client executes).serve rules (.json request v) =
        if executes request v then carryOut account request rules else rules := rfl
  have hexecuted : (wrappedRequests client executes callback).executed request =
      (executes request true ||
        (repeats callback (client (.json request true)) && executes request false)) := rfl
  unfold Counterpart.afterRequest
  rw [hserve true, hserve false, hexecuted]
  show (if repeats callback (client (.json request true)) then _ else _) = _
  cases repeats callback (client (.json request true)) with
  | false => simp
  | true =>
    cases executes request true with
    | false => simp
    | true => simp [htwice]

/-- A deletion by the URL is one by the name. -/
theorem carryOut_delete (ruleId : String) (rules : List AlarmRule) :
    carryOut account (account.deleteRequest ruleId) rules =
      rules.filter fun r => r.id ≠ ruleId := by
  show rules.filter (fun r =>
    account.rulesUrl ++ "/" ++ r.id ≠ account.rulesUrl ++ "/" ++ ruleId) = _
  simp [String.append_right_inj]

/-- The server that carries out a creation has the rule at the end of its listing, in the place of
an older one with its identifier. -/
theorem carryOut_create (ruleDef : AlarmRule) (rules : List AlarmRule) :
    carryOut account (account.createRequest ruleDef.definition) rules =
      rules.filter (fun r => r.id ≠ ruleDef.id) ++ [ruleDef] := by
  have hpost : (account.createRequest ruleDef.definition).method = "POST" := rfl
  have hpayload : (account.createRequest ruleDef.definition).payload = ruleDef.definition := rfl
  unfold carryOut
  rw [if_pos hpost, hpayload, ruleOf_definition]

end Server

section Alarms
variable {auth : AuthManager} {account : AlarmAccount} {client : HttpCall → HttpAnswer}
  {executes : JsonRequest → Bool → Bool} {callback : Option (String → Bool)}
  (hcallback : auth.sslVerificationCallback = callback.map fun accepts e => .ret (accepts e))
include hcallback

/-- The listing in a session has the result of the function, and leaves the rules as they are. -/
theorem listAlarmRules_single (rules : List AlarmRule) :
    (alarmCounterpart account client executes).protocol.Follows rules (auth.listAlarmRules account)
      fun t r => t = rules ∧ r = .ok (listAlarmRules auth.library.text
        (wrappedRequests client executes callback).answer account) := by
  refine .bind ((Counterpart.follows_answer hcallback (sends_json (.inl rfl))).mono ?_)
  rintro t r ⟨rfl, rfl⟩
  refine ⟨Counterpart.afterRequest_of_serve fun v => ?_, rfl⟩
  show (if executes account.listRequest v then rules else rules) = rules
  exact ite_self _

/-- The creation in a session has the result of the function and its effect on the server. -/
theorem createAlarmRule_single (ruleDef : AlarmRule) (rules : List AlarmRule) :
    (alarmCounterpart account client executes).protocol.Follows rules
      (auth.createAlarmRule account ruleDef.definition) fun t r =>
        t = (wrappedRequests client executes callback).create account ruleDef rules ∧
        r = .ok (createAlarmRule (wrappedRequests client executes callback).answer account
          ruleDef.definition) := by
  refine .bind ((Counterpart.follows_answer hcallback (sends_json (.inr (.inl rfl)))).mono ?_)
  rintro t r ⟨rfl, rfl⟩
  refine ⟨?_, rfl⟩
  rw [afterRequest_alarm (by simp [carryOut_create, List.filter_append, List.filter_filter]),
    carryOut_create]
  rfl

/-- The deletion in a session has the result of the function and its effect on the server. -/
theorem deleteAlarmRule_single (ruleId : String) (rules : List AlarmRule) :
    (alarmCounterpart account client executes).protocol.Follows rules
      (auth.deleteAlarmRule account ruleId) fun t r =>
        t = (wrappedRequests client executes callback).delete account ruleId rules ∧
        r = .ok (deleteAlarmRule (wrappedRequests client executes callback).answer account
          ruleId) := by
  refine .bind ((Counterpart.follows_answer hcallback (sends_json (.inr (.inr rfl)))).mono ?_)
  rintro t r ⟨rfl, rfl⟩
  refine ⟨?_, rfl⟩
  rw [afterRequest_alarm (by simp [carryOut_delete, List.filter_filter]), carryOut_delete]
  rfl

/-- The loop that deletes the default rules, rule by rule. It returns the identifiers that are
left. -/
theorem deleteDefaults_single (defaults : List AlarmRule) (existing : List String)
    (rules : List AlarmRule) :
    (alarmCounterpart account client executes).protocol.Follows rules
      (auth.deleteDefaults account defaults existing) fun t r =>
        ∃ left, r = .ok left ∧ deleteDefaults (wrappedRequests client executes callback) account
          defaults existing rules = (left, t) := by
  induction defaults generalizing existing rules with
  | nil => exact ⟨existing, rfl, rfl⟩
  | cons ruleDef rest ih =>
    rw [AuthManager.deleteDefaults, deleteDefaults]
    split
    · exact ih existing rules
    · refine .bind ((deleteAlarmRule_single hcallback ruleDef.id rules).mono ?_)
      rintro t r ⟨rfl, rfl⟩
      exact ih _ _

/-- The loop that creates the default rules, rule by rule, with its counters. -/
theorem seedDefaults_single (defaults : List AlarmRule) (existing : List String)
    (result : EnsureAlarmsResult) (rules : List AlarmRule) :
    (alarmCounterpart account client executes).protocol.Follows rules
      (auth.seedDefaults account defaults existing result) fun t r =>
        ∃ seeded, r = .ok seeded ∧ seedDefaults (wrappedRequests client executes callback) account
          defaults existing result rules = (seeded, t) := by
  induction defaults generalizing result rules with
  | nil => exact ⟨result, rfl, rfl⟩
  | cons ruleDef rest ih =>
    rw [AuthManager.seedDefaults, seedDefaults]
    split
    · exact ih result rules
    · split
      · exact ih _ rules
      · refine .bind ((createAlarmRule_single hcallback ruleDef rules).mono ?_)
        rintro t r ⟨rfl, rfl⟩
        exact ih _ _

/-- Seeding in a session leaves the server as the function says, and returns its result. It throws
exactly when the function does not read the listing. -/
theorem ensureDefaultAlarms_single (force : Bool) (rules : List AlarmRule) :
    (alarmCounterpart account client executes).protocol.Follows rules
      (auth.ensureDefaultAlarms account force) fun t r =>
        ensureDefaultAlarms auth.library.text (wrappedRequests client executes callback) account
            force rules =
          (r.map fun result => (result, t)).mapError fun _ => JsonError.typeError := by
  -- The listing first, then the deletions if they are forced, then the creations.
  refine .bind ((listAlarmRules_single hcallback rules).mono ?_)
  rintro t r ⟨ht, rfl⟩
  subst t
  unfold ensureDefaultAlarms
  by_cases hlisted : (!(listAlarmRules auth.library.text
      (wrappedRequests client executes callback).answer account).success) = true
  · simp only [hlisted]
    rfl
  · simp only [hlisted]
    cases hids : existingIds (listAlarmRules auth.library.text
        (wrappedRequests client executes callback).answer account).rules with
    | error e =>
      cases e
      rfl
    | ok existing =>
      cases force with
      | false =>
        refine (seedDefaults_single hcallback defaultAlarmRules existing _ rules).mono ?_
        rintro t r ⟨seeded, rfl, hseeded⟩
        exact congrArg Except.ok hseeded
      | true =>
        show (alarmCounterpart account client executes).protocol.Follows rules
          (auth.deleteDefaults account defaultAlarmRules existing >>= _) _
        refine .bind ((deleteDefaults_single hcallback _ _ _).mono ?_)
        rintro kept r ⟨left, rfl, hleft⟩
        refine (seedDefaults_single hcallback defaultAlarmRules left _ kept).mono ?_
        rintro t r ⟨seeded, rfl, hseeded⟩
        refine congrArg Except.ok ?_
        simp only [hleft]
        exact hseeded

end Alarms

end ThinrAgent
