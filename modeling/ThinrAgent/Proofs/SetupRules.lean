import ThinrAgent.Proofs.SessionParts

/-!
# `ThinrAgent.Proofs.SetupRules`: what a setup may do, and when

`SetupMay log o` says when the setup may perform `o` after `log`, the last event first:

- a request without verification repeats a request that has just failed with an error of the secure
  connection, and the user has accepted (`Insecure`);
- the question about insecure connections is asked once;
- a device is deleted right after the server has refused to create it because it exists, and the
  user has chosen to overwrite it (`Overwriting`);
- what is saved has been typed in, or comes from the last request of the session, with which the
  server has created the device (`Obtained`). It carries the user's decision;
- the service is installed after a successful save, and started after it is installed.

`SetupInv` is the invariant of the part before the end. The member `ssl_decision_` agrees with the
user's answer, and nothing is saved or installed yet. The lemmas here carry it through the requests.
-/

set_option autoImplicit false

namespace ThinrAgent

open Effects
open InteractiveSetup (sslQuestion nextPrompt conflictOptions typedCredentials)

namespace SessionOp

/-- The user's answer to the question about insecure connections. -/
def consent : (o : SessionOp) → o.Res → Option Bool
  | choose prompt _, choice => if prompt = sslQuestion then some (choice.1 = 1) else none
  | _, _ => none

/-- The operations of the callback: the member it reads and sets, and the question to the user. -/
def decides : SessionOp → Bool
  | sslDecision => true
  | setSslDecision _ => true
  | choose prompt _ => prompt = sslQuestion
  | _ => false

end SessionOp

/-- The last answer to the question about insecure connections. -/
def SessionLog.consent (log : SessionLog) : Option Bool := log.findSome? fun e => e.1.consent e.2

/-! ### The rules -/

/-- The same request has failed with an error of the secure connection, since then only the callback
has run, and the user has accepted. -/
def Insecure (log : SessionLog) (call : HttpCall) : Prop :=
  SessionLog.consent log = some true ∧
    ∃ between e rest, log = between ++ ⟨.http (call.withVerify true), .error e⟩ :: rest ∧
      (∀ x ∈ between, x.1.decides = true) ∧
      classifyException ("HTTP request failed: " ++ e) = .sslError

/-- Between the choice and the request: the callback, or the request without a response. -/
def Repeats (request : JsonRequest) (x : Event session) : Prop :=
  x.1.decides = true ∨ ∃ verifySsl e, x = ⟨.http (.json request verifySsl), .error e⟩

/-- The creation was refused, and the user has chosen to overwrite the device. -/
def Overwriting (log : SessionLog) (request : JsonRequest) : Prop :=
  ∃ between choice before host username accessToken deviceId,
    log = between ++ ⟨.choose nextPrompt conflictOptions, choice⟩ :: before ∧
    (∀ x ∈ between, Repeats request x) ∧ choice.1 = 2 ∧
    Refused before host username accessToken deviceId ∧
    request = AuthManager.deleteDeviceRequest host username deviceId accessToken

/-- The credentials have been typed in, or the last request has created their device. -/
inductive Obtained (library : SessionLibrary) (log : SessionLog) : DeviceCredentials → Prop
  | typed {between rest : SessionLog} (host deviceUser deviceId deviceToken : String)
      (hlog : log = between ++ ⟨.readPassword "Device token: ", deviceToken⟩ ::
        ⟨.readLine "Device ID: ", deviceId⟩ :: ⟨.readLine "Device user: ", deviceUser⟩ ::
        ⟨.readLine "Host: ", host⟩ :: rest)
      (hquiet : ∀ x ∈ between, x.1.isHttp = false) :
      Obtained library log (typedCredentials host deviceUser deviceId deviceToken)
  | created {credentials : DeviceCredentials} (h : Created library log credentials) :
      Obtained library log credentials

/-- What is saved: credentials that were obtained and are valid, with the user's decision about
certificates, and only once. -/
def Saves (library : SessionLibrary) (log : SessionLog) (saved : DeviceCredentials) : Prop :=
  ∃ credentials, Obtained library log credentials ∧ credentials.isValid = true ∧
    saved = { credentials with verifySsl := SessionLog.consent log ≠ some true } ∧
    ∀ x ∈ log, x.1.isFinal = false

/-- When the setup may perform an operation, by the log before it: an insecure request only after
the user's consent, a deletion only after a refusal and a choice, and the service only behind the
configuration. -/
def SetupMay (library : SessionLibrary) (log : SessionLog) : SessionOp → Prop
  | .http call => (call.verifySsl = false → Insecure log call) ∧
      ∀ request, call.deletes = some request → Overwriting log request
  | .choose prompt _ => prompt = sslQuestion → SessionLog.consent log = none
  | .save saved => Saves library log saved
  | .installService => ∃ saved rest, log = ⟨.save saved, .ok ()⟩ :: rest
  | .startService => ∃ rest, log = ⟨.installService, .ok true⟩ :: rest
  | .writeUpdateSection _ => False
  | _ => True

/-- The rules of the setup as a protocol whose state is the log. -/
abbrev setupRules (library : SessionLibrary) : Protocol session :=
  .byLog (SetupMay library) memberRead

/-- The value of the member that belongs to an answer. -/
def decisionOf : Option Bool → SslDecision
  | none => .notAsked
  | some true => .noVerify
  | some false => .verify

/-- What holds of the log until the configuration is saved: the member has what the user decided,
and nothing has been saved or installed. -/
structure SetupInv (log : SessionLog) : Prop where
  member : SessionLog.decision log = decisionOf (SessionLog.consent log)
  early : ∀ x ∈ log, x.1.isFinal = false

/-! ### What an event leaves alone -/

section Frame
variable {log : SessionLog}

/-- The consent after one more event: the event may be the one that decides. -/
@[simp] theorem consent_cons (x : Event session) :
    SessionLog.consent (x :: log) = (x.1.consent x.2).or (SessionLog.consent log) := by
  rw [SessionLog.consent, List.findSome?_cons]
  cases x.1.consent x.2 <;> rfl

/-- An event that stores nothing, answers nothing and is not final keeps the invariant. -/
theorem SetupInv.cons (hinv : SetupInv log) {x : Event session} (hstores : x.1.stores = none)
    (hconsent : x.1.consent x.2 = none) (hfinal : x.1.isFinal = false) : SetupInv (x :: log) where
  member := by
    rw [decision_cons, consent_cons, hstores, hconsent]
    exact hinv.member
  early := forall_mem_cons_op hfinal hinv.early

/-- Before the first event nothing is decided, saved or installed. -/
theorem SetupInv.start : SetupInv [] where
  member := rfl
  early := fun _ h => by cases h

/-- The request may be repeated, and the callback may run. -/
theorem Overwriting.cons {request : JsonRequest} (h : Overwriting log request) {x : Event session}
    (hx : Repeats request x) : Overwriting (x :: log) request := by
  obtain ⟨between, choice, before, host, username, accessToken, deviceId, rfl, hbetween, hrest⟩ := h
  refine ⟨x :: between, choice, before, host, username, accessToken, deviceId, rfl, ?_, hrest⟩
  intro y hy
  rcases List.mem_cons.mp hy with rfl | hy
  · exact hx
  · exact hbetween y hy

/-- The choice to overwrite stays the last one while the request is repeated. -/
theorem Overwriting.append {request : JsonRequest} (h : Overwriting log request)
    {between : SessionLog} (hbetween : ∀ x ∈ between, x.1.decides = true) :
    Overwriting (between ++ log) request := by
  induction between with
  | nil => exact h
  | cons x between ih =>
    exact (ih fun y hy => hbetween y (List.mem_cons_of_mem _ hy)).cons
      (.inl (hbetween x List.mem_cons_self))

/-- Events without a request keep the origin of credentials. -/
theorem Obtained.cons {library : SessionLibrary} {credentials : DeviceCredentials}
    (h : Obtained library log credentials) {x : Event session} (hx : x.1.isHttp = false) :
    Obtained library (x :: log) credentials := by
  cases h with
  | typed host deviceUser deviceId deviceToken hlog hquiet =>
    exact .typed host deviceUser deviceId deviceToken (congrArg (x :: ·) hlog)
      (forall_mem_cons_op hx hquiet)
  | created h => exact .created (h.cons hx)

/-- Credentials are obtained with the verification of certificates switched on. -/
theorem Obtained.verifySsl {library : SessionLibrary} {credentials : DeviceCredentials}
    (h : Obtained library log credentials) : credentials.verifySsl = true := by
  cases h with
  | typed host deviceUser deviceId deviceToken hlog hquiet => rfl
  | created h => exact h.verifySsl

end Frame

/-! ### Requests -/

section Requests
variable {library : SessionLibrary} {log : SessionLog}

/-- A plain operation decides nothing and is none of the end. -/
theorem SetupInv.plain (hinv : SetupInv log) {o : SessionOp} (ho : o.isPlain = true) (r : o.Res) :
    SetupInv (⟨o, r⟩ :: log) := by
  refine hinv.cons ?_ ?_ ?_
  · cases o <;> first | rfl | cases ho
  · cases o with
    | choose prompt options => exact if_neg (by simpa [SessionOp.isPlain] using ho)
    | _ => rfl
  · cases o <;> first | rfl | cases ho

/-- A plain operation is always allowed, whatever the log says. -/
theorem setupMay_plain {o : SessionOp} (ho : o.isPlain = true) : SetupMay library log o := by
  cases o with
  | choose prompt options => exact fun h => absurd h (by simpa [SessionOp.isPlain] using ho)
  | http call => cases ho
  | configExists => cases ho
  | save saved => cases ho
  | writeUpdateSection updateObj => cases ho
  | installService => cases ho
  | startService => cases ho
  | _ => trivial

/-- What the callback gives, and what it leaves in the log. -/
def Decided (log : SessionLog) (log' : SessionLog) (allow : Bool) : Prop :=
  (allow = true → SessionLog.consent log' = some true) ∧
    ∃ between, log' = between ++ log ∧ ∀ x ∈ between, x.1.decides = true

/-- The callback asks when nobody has asked, and repeats the answer afterwards. -/
theorem follows_callback (hinv : SetupInv log) (errorMsg : String) :
    (setupRules library).Follows log (InteractiveSetup.sslVerificationCallback errorMsg)
      fun log' r => SetupInv log' ∧ ∃ allow, r = .ok allow ∧ Decided log log' allow := by
  refine ⟨trivial, fun decision hread => ?_⟩
  obtain rfl : decision = SessionLog.decision log := hread
  have hread : SetupInv (⟨.sslDecision, SessionLog.decision log⟩ :: log) :=
    hinv.cons rfl rfl rfl
  show (setupRules library).Follows _ (if SessionLog.decision log = .notAsked then _ else _) _
  cases hconsent : SessionLog.consent log with
  | none =>
    have hfirst : SessionLog.decision log = .notAsked := by
      rw [hinv.member, hconsent]
      rfl
    rw [if_pos hfirst]
    refine ⟨fun _ => ?_, fun choice _ => ?_⟩
    · rw [consent_cons]
      exact hconsent
    -- `confirm` gives the user's answer.
    have hanswer : ∀ k : Bool → SessionM Bool,
        ((if choice.1 = 1 then return true
          else if choice.1 = 2 then return false else return true) >>= k) =
          k (choice.1 = 1) := by
      intro k
      obtain ⟨n, hn⟩ := choice
      have hn2 : n ≤ 2 := hn.2
      rcases (by omega : n = 1 ∨ n = 2) with rfl | rfl <;> rfl
    show (setupRules library).Follows _ ((if choice.1 = 1 then return true
      else if choice.1 = 2 then return false else return true) >>= _) _
    rw [hanswer]
    refine ⟨trivial, fun _ _ => ?_⟩
    refine ⟨⟨?_, ?_⟩, decide (choice.1 = 1), rfl, ?_, ?_⟩
    · simp only [decision_cons, consent_cons, SessionOp.stores, SessionOp.consent,
        Option.getD_some, Option.none_or, if_true]
      by_cases hyes : choice.1 = 1
      · simp [hyes, decisionOf]
      · simp [hyes, decisionOf]
    · intro x hx
      simp only [List.mem_cons] at hx
      rcases hx with rfl | rfl | rfl | hx
      · rfl
      · rfl
      · rfl
      · exact hinv.early x hx
    · intro hyes
      simp only [consent_cons, SessionOp.consent, Option.none_or, if_true]
      rw [hyes]
      rfl
    · refine ⟨[⟨.setSslDecision _, ()⟩, ⟨.choose sslQuestion ["Yes", "No"], choice⟩,
        ⟨.sslDecision, _⟩], rfl, ?_⟩
      intro x hx
      simp only [List.mem_cons, List.not_mem_nil, or_false] at hx
      rcases hx with rfl | rfl | rfl <;> rfl
  | some allow =>
    have hdecision : SessionLog.decision log = decisionOf (some allow) := by
      rw [hinv.member, hconsent]
    have hlater : SessionLog.decision log ≠ .notAsked := by
      rw [hdecision]
      cases allow <;> decide
    rw [if_neg hlater]
    refine ⟨hread, _, rfl, fun hyes => ?_, [⟨.sslDecision, _⟩], rfl, ?_⟩
    · rw [consent_cons, hconsent]
      rw [hdecision] at hyes
      cases allow with
      | true => rfl
      | false => cases hyes
    · intro x hx
      rw [List.mem_singleton.mp hx]
      rfl

/-- A wrapper asks the callback after an error of the secure connection only, and repeats the
request without verification only if the user accepts. -/
theorem keeps_withFallback {request : Bool → SessionM HttpResponse} {call : Bool → HttpCall}
    (h : Sends request call) : (setupRules library).Keeps SetupInv
      (fun log => ∀ req, (call true).deletes = some req → Overwriting log req)
      ((InteractiveSetup.authManager library).withFallback request) (Answered call) := by
  intro log hinv hpre
  refine Protocol.Follows.tryCatch ?_
  rw [h.sends]
  -- The first request verifies the certificate.
  refine ⟨⟨fun hv => ?_, hpre⟩, fun (answer : HttpAnswer) _ => ?_⟩
  · rw [h.verifySsl] at hv
    cases hv
  cases answer with
  | ok res =>
    refine ⟨hinv.cons rfl rfl rfl, fun response hresponse => ?_⟩
    cases hresponse
    exact ⟨true, res, log, rfl, rfl⟩
  | error e =>
    have hinv₁ : SetupInv (⟨.http (call true), .error e⟩ :: log) := hinv.cons rfl rfl rfl
    show (setupRules library).Follows (⟨.http (call true), .error e⟩ :: log)
      (if classifyException ("HTTP request failed: " ++ e) ≠ .sslError then _ else _) _
    split
    · exact ⟨hinv₁, fun _ hresponse => by cases hresponse⟩
    · next hssl =>
      refine Protocol.Follows.bind ((follows_callback hinv₁ _).mono fun log₂ r h₂ => ?_)
      obtain ⟨hinv₂, allow, rfl, hconsent, between, rfl, hbetween⟩ := h₂
      -- The answer to the question is what decides, and it was asked after this very error.
      cases allow with
      | false => exact ⟨hinv₂, fun _ hresponse => by cases hresponse⟩
      | true =>
        show (setupRules library).Follows _ (request false) _
        rw [h.sends]
        refine ⟨⟨fun _ => ?_, fun req hreq => ?_⟩, fun (answer : HttpAnswer) _ => ?_⟩
        · refine ⟨hconsent rfl, between, e, log, ?_, hbetween, not_not.mp hssl⟩
          rw [h.withVerify]
        · rw [h.deletes false true] at hreq
          refine Overwriting.append (Overwriting.cons (hpre req hreq) (.inr ⟨true, e, ?_⟩)) hbetween
          -- The same device is deleted as in the refused request, which was the last call before
          -- the question.
          cases hcall : call true with
          | json request v =>
            rw [hcall] at hreq
            have hv := h.verifySsl true
            rw [hcall] at hv
            rw [HttpCall.deletes] at hreq
            split at hreq
            · cases hreq
              cases hv
              rfl
            · cases hreq
          | form request =>
            rw [hcall] at hreq
            cases hreq
        cases answer with
        | ok res =>
          refine ⟨hinv₂.cons rfl rfl rfl, fun response hresponse => ?_⟩
          cases hresponse
          exact ⟨false, res, _, rfl, rfl⟩
        | error e' => exact ⟨hinv₂.cons rfl rfl rfl, fun _ hresponse => by cases hresponse⟩

variable {Pre : SessionLog → Prop}

/-- A request that deletes nothing keeps the rules of the setup, with the repetition that the user
may consent to. -/
theorem keeps_request {request : JsonRequest}
    (hmethod : request.method = "GET" ∨ request.method = "POST") :
    (setupRules library).Keeps SetupInv Pre
      ((InteractiveSetup.authManager library).makeHttpRequestWithFallback request)
      (Answered (HttpCall.json request)) := by
  have hsends : Sends _ (HttpCall.json request) := sends_json (hmethod.imp_right .inl)
  refine (keeps_withFallback hsends).mono (fun log _ _ req hreq => ?_) fun _ _ _ h => h
  rw [HttpCall.deletes, if_neg (by rcases hmethod with h | h <;> rw [h] <;> decide)] at hreq
  cases hreq

/-- A request with a form, with the question about insecure connections if it comes to that. -/
theorem keeps_form (url : String) (formData : FormData) (authorization : String) :
    (setupRules library).Keeps SetupInv Pre
      ((InteractiveSetup.authManager library).makeHttpRequestFormWithFallback url "POST" formData
        authorization) fun _ _ => True :=
  (keeps_withFallback (sends_form url formData authorization)).mono
    (fun _ _ _ _ hreq => by cases hreq) fun _ _ _ _ => trivial

/-- The parts of a session may be used in the setup. -/
theorem setup_plain (library : SessionLibrary) :
    PlainRules (SetupMay library) SetupInv (InteractiveSetup.authManager library) where
  may_plain _ ho := setupMay_plain ho
  cons_plain r hinv ho := hinv.plain ho r
  request _ _ hmethod := keeps_request hmethod
  form url formData authorization := keeps_form url formData authorization

end Requests

end ThinrAgent
