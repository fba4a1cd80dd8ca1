import ThinrAgent.Cli.InstallCommand
import ThinrAgent.Proofs.SessionParts

/-!
# `ThinrAgent.Proofs.InstallCommand`: what `install` may do, and when

`InstallMay options log o` says when the command may perform `o` after `log`, the last event first:

- it looks for a configuration first. It goes on only when there is none, or when `--overwrite` and
  a token are given, and only with an update policy that is valid (`Admitted`);
- every request is sent with verification. `--no-verify-ssl` is about the configuration that is
  saved, not about the requests of the command;
- with `--overwrite` one request deletes a device that the server has just refused to create
  (`Replaces`);
- what is saved comes from the last request, with which the server has created the device;
- the update policy is recorded right after that (`Recorded`), and the service is installed last.

`follows_handleInstall` says that the command follows these rules. The exit code is 0 only when the
configuration has been saved and the service has been installed.
-/

set_option autoImplicit false

namespace ThinrAgent

open Effects
open InteractiveSetup (sslQuestion)

/-- The operation is a request that deletes something. -/
def SessionOp.deletes : SessionOp → Bool
  | .http call => call.deletes.isSome
  | _ => false

/-- The command has looked for a configuration and may go on. -/
def Admitted (options : InstallOptions) (log : SessionLog) : Prop :=
  (∃ found : Bool, log.getLast? = some ⟨.configExists, found⟩ ∧
    (found = true → options.overwrite = true ∧ options.token ≠ "")) ∧
  (options.updatePolicy ≠ "" → UpdatePolicy.ofString options.updatePolicy ≠ none)

/-- The request deletes a device that was just refused, and nothing has been deleted before. -/
def Replaces (options : InstallOptions) (log : SessionLog) (request : JsonRequest) : Prop :=
  options.overwrite = true ∧ (∀ x ∈ log, x.1.deletes = false) ∧
    ∃ host username accessToken deviceId, Refused log host username accessToken deviceId ∧
      request = AuthManager.deleteDeviceRequest host username deviceId accessToken

/-- The section that is written: an explicit policy in the settings that were there, or the
defaults in an empty section. -/
def Recorded (options : InstallOptions) (existing written : Json) : Prop :=
  (∃ policy, UpdatePolicy.ofString options.updatePolicy = some policy ∧
    written = { UpdateSettings.fromJson existing with
      policy, source := .localExplicit : UpdateSettings }.toJson) ∨
  (options.updatePolicy = "" ∧ existing.isEmpty = true ∧ written = ({} : UpdateSettings).toJson)

/-- The configuration has just been saved, and its policy is what it should be. -/
def PolicyRecorded (options : InstallOptions) (log : SessionLog) : Prop :=
  (∃ existing written saved rest, log = ⟨.writeUpdateSection written, .ok ()⟩ ::
      ⟨.readUpdateSection, existing⟩ :: ⟨.save saved, .ok ()⟩ :: rest ∧
      Recorded options existing written) ∨
  (∃ existing saved rest, log = ⟨.readUpdateSection, existing⟩ :: ⟨.save saved, .ok ()⟩ :: rest ∧
      options.updatePolicy = "" ∧ existing.isEmpty = false)

/-- When the command may perform an operation, by the log before it: requests only once the options
are admitted, a deletion only with `--overwrite`, and the policy and the service only behind the
configuration. -/
def InstallMay (library : SessionLibrary) (options : InstallOptions) (log : SessionLog) :
    SessionOp → Prop
  | .configExists => log = []
  | .http call => Admitted options log ∧ call.verifySsl = true ∧
      ∀ request, call.deletes = some request → Replaces options log request
  | .setSslDecision _ => False
  | .save saved => Admitted options log ∧ (∀ x ∈ log, x.1.isFinal = false) ∧
      ∃ credentials, Created library log credentials ∧ credentials.isValid = true ∧
        saved = { credentials with verifySsl := !options.noVerifySsl }
  | .writeUpdateSection written => ∃ existing saved rest,
      log = ⟨.readUpdateSection, existing⟩ :: ⟨.save saved, .ok ()⟩ :: rest ∧
        Recorded options existing written
  | .installService => PolicyRecorded options log
  | .startService => options.noStart = false ∧ ∃ rest, log = ⟨.installService, .ok true⟩ :: rest
  | _ => Admitted options log

/-- The rules of the command as a protocol whose state is the log. -/
abbrev installRules (library : SessionLibrary) (options : InstallOptions) : Protocol session :=
  .byLog (InstallMay library options) memberRead

/-- What holds until the configuration is saved. Before the device is deleted, nothing is. -/
structure InstallInv (options : InstallOptions) (kept : Bool) (log : SessionLog) : Prop where
  admitted : Admitted options log
  early : ∀ x ∈ log, x.1.isFinal = false
  keeps : kept = true → ∀ x ∈ log, x.1.deletes = false

section Requests
variable {library : SessionLibrary} {options : InstallOptions} {kept : Bool} {log : SessionLog}

/-- What has been looked for at the beginning stays in the log. -/
theorem Admitted.cons (h : Admitted options log) (x : Event session) :
    Admitted options (x :: log) := by
  obtain ⟨⟨found, hlast, hfound⟩, hpolicy⟩ := h
  refine ⟨⟨found, ?_, hfound⟩, hpolicy⟩
  cases log with
  | nil => cases hlast
  | cons y log => exact hlast

/-- An event that is neither of the end nor a deletion keeps the invariant. -/
theorem InstallInv.cons (hinv : InstallInv options kept log) {x : Event session}
    (hfinal : x.1.isFinal = false) (hdeletes : x.1.deletes = false) :
    InstallInv options kept (x :: log) where
  admitted := hinv.admitted.cons x
  early := forall_mem_cons_op hfinal hinv.early
  keeps hkept := forall_mem_cons_op hdeletes (hinv.keeps hkept)

/-- A plain operation is none of the end. -/
theorem SessionOp.isFinal_of_isPlain {o : SessionOp} (ho : o.isPlain = true) :
    o.isFinal = false := by
  cases o <;> first | rfl | cases ho

/-- A plain operation is no request, and deletes nothing. -/
theorem SessionOp.deletes_of_isPlain {o : SessionOp} (ho : o.isPlain = true) :
    o.deletes = false := by
  cases o <;> first | rfl | cases ho

/-- The rules of the command allow a plain operation once the beginning is over. -/
theorem installMay_plain (hinv : InstallInv options kept log) {o : SessionOp}
    (ho : o.isPlain = true) : InstallMay library options log o := by
  cases o with
  | configExists => cases ho
  | http call => cases ho
  | setSslDecision decision => cases ho
  | save saved => cases ho
  | writeUpdateSection updateObj => cases ho
  | installService => cases ho
  | startService => cases ho
  | _ => exact hinv.admitted

/-- Without a callback a request is sent once, with verification. -/
theorem keeps_withoutCallback {request : Bool → SessionM HttpResponse} {call : Bool → HttpCall}
    (h : Sends request call) (kept' : Bool) (Pre : SessionLog → Prop)
    (hafter : ∀ log, InstallInv options kept log → ∀ answer : HttpAnswer,
      InstallInv options kept' (⟨.http (call true), answer⟩ :: log))
    (hpre : ∀ log, InstallInv options kept log → Pre log → ∀ req,
      (call true).deletes = some req → Replaces options log req) :
    ∀ log, InstallInv options kept log → Pre log → (installRules library options).Follows log
      ((InstallCommand.authManager library).withFallback request) fun log' r =>
        InstallInv options kept' log' ∧ ∀ response, r = .ok response →
          Answered call log' response := by
  intro log hinv hlog
  refine Protocol.Follows.tryCatch ?_
  rw [h.sends]
  refine ⟨⟨hinv.admitted, h.verifySsl true, hpre log hinv hlog⟩,
    fun (answer : HttpAnswer) _ => ?_⟩
  have hinv' := hafter log hinv answer
  cases answer with
  | ok res =>
    refine ⟨hinv', fun response hresponse => ?_⟩
    cases hresponse
    exact ⟨true, res, log, rfl, rfl⟩
  | error e =>
    -- The handler throws whether the error is about the secure connection or not.
    show (installRules library options).Follows _ (if _ then .throw _ else .throw _) _
    split
    · exact ⟨hinv', fun _ hresponse => by cases hresponse⟩
    · exact ⟨hinv', fun _ hresponse => by cases hresponse⟩

/-- A request that deletes nothing keeps the invariant. -/
theorem keeps_plainCall {request : Bool → SessionM HttpResponse} {call : Bool → HttpCall}
    (h : Sends request call) (hkeeps : (call true).deletes = none) (Pre : SessionLog → Prop) :
    (installRules library options).Keeps (InstallInv options kept) Pre
      ((InstallCommand.authManager library).withFallback request) (Answered call) := by
  refine keeps_withoutCallback h kept Pre (fun log hinv answer => hinv.cons rfl ?_)
    fun log _ _ req hreq => ?_
  · show (call true).deletes.isSome = false
    rw [hkeeps]
    rfl
  · rw [hkeeps] at hreq
    cases hreq

/-- The parts of a session may be used in the command. -/
theorem install_plain (library : SessionLibrary) (options : InstallOptions) (kept : Bool) :
    PlainRules (InstallMay library options) (InstallInv options kept)
      (InstallCommand.authManager library) where
  may_plain hinv ho := installMay_plain hinv ho
  cons_plain r hinv ho :=
    hinv.cons (SessionOp.isFinal_of_isPlain ho) (SessionOp.deletes_of_isPlain ho)
  request Pre {request} hmethod := by
    refine keeps_plainCall (sends_json (hmethod.imp_right .inl)) (if_neg ?_) Pre
    rcases hmethod with h | h <;> rw [h] <;> decide
  form url formData authorization :=
    (keeps_plainCall (sends_form url formData authorization) rfl _).plain

/-! ### The parts without a promise -/

section Plain

/-- The identifier is the one given, or a generated one. -/
theorem plain_determineDeviceId (providedDeviceId : String) :
    PlainPart (InstallMay library options) (InstallInv options kept)
      (InstallCommand.determineDeviceId providedDeviceId) :=
  .ite (.ret _) ((install_plain library options kept).ask rfl)

/-- The name is the one asked for, or a fallback. -/
theorem plain_determineDeviceName (requested fallback : String) :
    PlainPart (InstallMay library options) (InstallInv options kept)
      (InstallCommand.determineDeviceName requested fallback) :=
  .ite (.ret _) (.bind ((install_plain library options kept).ask rfl) fun _ => .ret _)

/-- A product that is asked for is looked up in the listing and created when it is missing, with its
rules seeded. -/
theorem plain_resolveProvided (account : AlarmAccount) (products : Json) (product : String) :
    PlainPart (InstallMay library options) (InstallInv options kept)
      (InstallCommand.resolveProvided library account products product) := by
  refine .bind (.accessOf _ _ _) fun found => .ite (.ret _) (.bind ?_ fun _ => .ret _)
  exact plain_createProduct (install_plain library options kept) _ _ _ _

/-- Without a product in the command the default one is taken or created. -/
theorem plain_resolveDefault (account : AlarmAccount) (products : Json) :
    PlainPart (InstallMay library options) (InstallInv options kept)
      (InstallCommand.resolveDefault library account products) := by
  refine .bind (.accessOf _ _ _) fun id => .ite (.ret _) (.bind ?_ fun _ => .ret _)
  exact plain_createProduct (install_plain library options kept) _ _ _ _

/-- The choice of the product is plain, whichever of the two it is. -/
theorem plain_resolveProduct (host username accessToken product : String) :
    PlainPart (InstallMay library options) (InstallInv options kept)
      (InstallCommand.resolveProduct library host username accessToken product) := by
  have h := install_plain library options kept
  refine .bind (plain_listProducts h _ _ _) fun listResult => .ite (.ret _) ?_
  refine .bind (.ite (plain_resolveProvided _ _ _) (plain_resolveDefault _ _)) fun id => ?_
  exact .ite (.bind (plain_ensureDefaultAlarms h _) fun _ => .ret _) (.ret _)

/-- The claims of a token are read on the device. -/
theorem plain_claimsOfToken (token : String) :
    PlainPart (InstallMay library options) (InstallInv options kept)
      (InstallCommand.claimsOfToken library token) := by
  refine .bind (plain_decodeToken _ _) fun jwtPayload => ?_
  cases jwtPayload.find "svr" with
  | none => exact .ret _
  | some svr =>
    cases jwtPayload.find "usr" with
    | none => exact .ret _
    | some usr =>
      exact .bind (.accessOf _ _ _) fun host => .bind (.accessOf _ _ _) fun username => .ret _

end Plain

/-! ### The end -/

/-- An empty section, as a file without one is read, has the default settings. -/
theorem fromJson_of_isEmpty {j : Json} (h : j.isEmpty = true) :
    UpdateSettings.fromJson j = {} := by
  have hfind : ∀ key, j.find key = none := by
    intro key
    cases j with
    | obj kvs =>
      rw [List.isEmpty_iff.mp h]
      rfl
    | _ => rfl
  unfold UpdateSettings.fromJson
  simp only [UpdateSettings.stringAt, clampInt, hfind]
  rfl

/-- The configuration has been saved and the service has been installed. -/
def Installed (log : SessionLog) : Prop :=
  Saved log ∧ (⟨.installService, (.ok true : Except String Bool)⟩ : Event session) ∈ log

/-- A command reports success only after the service was installed. -/
def InstallEnds (log : SessionLog) (r : Except SessionExc Bool) : Prop :=
  r = .ok true → Installed log

/-- Where the policy has been recorded, the configuration has been saved before. -/
theorem PolicyRecorded.saved (h : PolicyRecorded options log) : Saved log := by
  rcases h with ⟨existing, written, saved, rest, rfl, -⟩ | ⟨existing, saved, rest, rfl, -⟩
  · exact ⟨saved, .tail _ (.tail _ (.head _))⟩
  · exact ⟨saved, .tail _ (.head _)⟩

/-- The service is installed, and started unless `--no-start` is given, when the policy is recorded.
When it ends with success, the service has been installed, and the configuration saved before it. -/
theorem follows_installAndStart (hrecorded : PolicyRecorded options log) :
    (installRules library options).Follows log (InstallCommand.installAndStart options.noStart)
      InstallEnds := by
  obtain ⟨saved, hsaved⟩ := hrecorded.saved
  refine ⟨hrecorded, fun (installed : Except String Bool) _ => ?_⟩
  rcases installed with text | _ | _
  · exact fun h => by cases h
  · exact fun h => by cases h
  · show (installRules library options).Follows _ (if options.noStart then _ else _) _
    split
    · exact fun _ => ⟨⟨saved, .tail _ hsaved⟩, .head _⟩
    · next hstart =>
      refine ⟨⟨by simpa using hstart, _, rfl⟩, fun (started : Except String Bool) _ => ?_⟩
      cases started with
      | error text => exact fun h => by cases h
      | ok b => exact fun _ => ⟨⟨saved, .tail _ (.tail _ hsaved)⟩, .tail _ (.head _)⟩

/-- The policy is recorded before the service is installed. -/
theorem follows_recordPolicy {rest : SessionLog} {saved : DeviceCredentials}
    (hadmitted : Admitted options rest) :
    (installRules library options).Follows (⟨.save saved, .ok ()⟩ :: rest)
      (InstallCommand.recordPolicy options.updatePolicy >>= fun _ =>
        InstallCommand.installAndStart options.noStart) InstallEnds := by
  refine ⟨hadmitted.cons _, fun (existing : Json) _ => ?_⟩
  -- A section that is written is on record, and the service comes after it.
  have hwrite : ∀ written, Recorded options existing written →
      (installRules library options).Follows
        (⟨.readUpdateSection, existing⟩ :: ⟨.save saved, .ok ()⟩ :: rest)
        ((ask (.writeUpdateSection written) >>= valueOf) >>= fun _ =>
          InstallCommand.installAndStart options.noStart) InstallEnds := by
    intro written hwritten
    refine ⟨⟨existing, saved, rest, rfl, hwritten⟩, fun (answer : Except String Unit) _ => ?_⟩
    cases answer with
    | error text => exact fun h => by cases h
    | ok u =>
      exact follows_installAndStart (.inl ⟨existing, written, saved, rest, rfl, hwritten⟩)
  show (installRules library options).Follows _ ((if options.updatePolicy ≠ "" then _
    else if existing.isEmpty = true then _ else _) >>= _) _
  split
  · next hpolicy =>
    have hvalid := hadmitted.2 hpolicy
    split
    · next policy hparse => exact hwrite _ (.inl ⟨policy, hparse, rfl⟩)
    · next hparse => exact absurd hparse hvalid
  · next hpolicy =>
    -- Without a policy on the command line an empty section gets the defaults, and another one
    -- stays.
    rw [ne_eq, not_not] at hpolicy
    split
    · next hempty =>
      exact hwrite _ (.inr ⟨hpolicy, hempty, by rw [fromJson_of_isEmpty hempty]⟩)
    · next hempty =>
      exact follows_installAndStart
        (.inr ⟨existing, saved, rest, rfl, hpolicy, by simpa using hempty⟩)

/-- The end of the command: save, record the policy, install the service. Each of the three is
reached only when the one before has worked. -/
theorem follows_saveAndInstallService {credentials : DeviceCredentials}
    (hinv : InstallInv options kept log) (hcreated : Created library log credentials)
    (hvalid : credentials.isValid = true) :
    (installRules library options).Follows log
      (InstallCommand.saveAndInstallService options credentials) InstallEnds := by
  refine ⟨⟨hinv.admitted, hinv.early, credentials, hcreated, hvalid, rfl⟩,
    fun (answer : Except String Unit) _ => ?_⟩
  cases answer with
  | error text => exact fun h => by cases h
  | ok u => exact follows_recordPolicy hinv.admitted

/-- One request deletes the device that was refused. -/
theorem follows_deleteDevice {host username deviceId accessToken : String}
    (hinv : InstallInv options true log) (hoverwrite : options.overwrite = true)
    (hrefused : Refused log host username accessToken deviceId) :
    (installRules library options).Follows log
      ((InstallCommand.authManager library).deleteDevice host username deviceId accessToken)
      fun log' _ => InstallInv options false log' := by
  have hsends : Sends _ (HttpCall.json
      (AuthManager.deleteDeviceRequest host username deviceId accessToken)) :=
    sends_json (.inr (.inr rfl))
  refine Protocol.Follows.bind ((keeps_withoutCallback hsends false (fun log' => log' = log) ?_ ?_
    log hinv rfl).mono fun log' r h => ?_)
  · intro log' hinv' answer
    exact ⟨hinv'.admitted.cons _, forall_mem_cons_op rfl hinv'.early, fun h => by cases h⟩
  · rintro log' hinv' rfl req hreq
    cases hreq
    exact ⟨hoverwrite, hinv'.keeps rfl, host, username, accessToken, deviceId, hrefused, rfl⟩
  · cases r with
    | ok response => exact h.1
    | error e => exact h.1

/-- Provision the device, with one deletion when `--overwrite` is given and the server refuses, and
go on to the end. -/
theorem follows_completeProvisioning (hinv : InstallInv options true log)
    (host username deviceId deviceName accessToken productId : String) :
    (installRules library options).Follows log
      (InstallCommand.completeProvisioning library options host username deviceId deviceName
        accessToken productId) InstallEnds := by
  refine (keeps_provisionDevice (install_plain library options true) host username deviceId
    deviceName accessToken productId).follows_bind hinv trivial ?_
    fun _ _ _ h => by cases h
  intro log₁ result hinv₁ hresult
  split
  · next hsuccess =>
    exact follows_saveAndInstallService hinv₁ (hresult.1 hsuccess).1 (hresult.1 hsuccess).2
  · next hfailed =>
    split
    · next h409 =>
      -- The deletion is admitted by the refusal in the log and the option.
      have hrefused := hresult.2 (by simpa using hfailed) h409.1
      refine Protocol.Follows.bind ((follows_deleteDevice hinv₁ h409.2 hrefused).mono
        fun log₂ r hinv₂ => ?_)
      cases r with
      | error e => exact fun h => by cases h
      | ok deleted =>
        refine (keeps_provisionDevice (install_plain library options false) host username deviceId
          deviceName accessToken productId).follows_bind hinv₂ trivial ?_
          fun _ _ _ h => by cases h
        intro log₃ retry hinv₃ hretry
        split
        · next hsuccess =>
          exact follows_saveAndInstallService hinv₃ (hretry.1 hsuccess).1 (hretry.1 hsuccess).2
        · exact fun h => by cases h
    · exact fun h => by cases h

/-- The command with a token, from the decoding of the token on. -/
theorem follows_installWithToken (hinv : InstallInv options true log) :
    (installRules library options).Follows log
      (InstallCommand.installWithToken library options) InstallEnds := by
  refine Protocol.Follows.tryCatch_ret ?_ fun _ _ _ h => by cases h
  refine (plain_claimsOfToken options.token).follows_bind hinv trivial ?_ fun _ _ _ h => by cases h
  intro log₁ claims hinv₁ _
  cases claims with
  | none => exact fun h => by cases h
  | some claims =>
    refine (plain_resolveProduct claims.1 claims.2 options.token options.product).follows_bind
      hinv₁ trivial ?_ fun _ _ _ h => by cases h
    intro log₂ productId hinv₂ _
    refine (plain_determineDeviceId options.deviceId).follows_bind hinv₂ trivial ?_
      fun _ _ _ h => by cases h
    intro log₃ deviceId hinv₃ _
    refine (plain_determineDeviceName options.name deviceId).follows_bind hinv₃ trivial ?_
      fun _ _ _ h => by cases h
    intro log₄ deviceName hinv₄ _
    exact follows_completeProvisioning hinv₄ claims.1 claims.2 deviceId deviceName options.token
      productId

/-- The command without a token, from the login with a user name and a password on. -/
theorem follows_installInteractive (hinv : InstallInv options true log) :
    (installRules library options).Follows log
      (InstallCommand.installInteractive library options) InstallEnds := by
  -- Every step up to the provisioning is plain, so the invariant passes through them all.
  have hplain := install_plain library options true
  refine (hplain.plain_ask rfl).follows_bind hinv trivial ?_ fun _ _ _ h => by cases h
  intro log₁ interactive hinv₁ _
  split
  · exact fun h => by cases h
  refine (hplain.plain_ask rfl).follows_bind hinv₁ trivial ?_ fun _ _ _ h => by cases h
  intro log₂ username hinv₂ _
  split
  · exact fun h => by cases h
  refine (hplain.plain_ask rfl).follows_bind hinv₂ trivial ?_ fun _ _ _ h => by cases h
  intro log₃ password hinv₃ _
  refine (plain_determineDeviceId options.deviceId).follows_bind hinv₃ trivial ?_
    fun _ _ _ h => by cases h
  intro log₄ deviceId hinv₄ _
  refine (plain_determineDeviceName options.name deviceId).follows_bind hinv₄ trivial ?_
    fun _ _ _ h => by cases h
  intro log₅ deviceName hinv₅ _
  refine (plain_oauthPasswordFlow hplain options.host username password).follows_bind hinv₅ trivial
    ?_ fun _ _ _ h => by cases h
  intro log₆ result hinv₆ _
  split
  · exact fun h => by cases h
  have hproduct : PlainPart (InstallMay library options) (InstallInv options true)
      (InstallCommand.resolveProduct library options.host username result.accessToken
        options.product) := plain_resolveProduct _ _ _ _
  refine hproduct.follows_bind hinv₆ trivial ?_ fun _ _ _ h => by cases h
  intro log₇ productId hinv₇ _
  exact follows_completeProvisioning hinv₇ options.host username deviceId deviceName
    result.accessToken productId

end Requests

/-! ### The command -/

/-- The command follows the rules, and its exit code is 0 only after an installation. -/
theorem follows_handleInstall (library : SessionLibrary) (options : InstallOptions) :
    (installRules library options).Follows [] (InstallCommand.handleInstall library options)
      fun log r => r = .ok 0 → Installed log := by
  refine ⟨rfl, fun (found : Bool) _ => ?_⟩
  show (installRules library options).Follows _ (if _ then _ else if _ then _ else _) _
  split
  · exact fun h => by cases h
  · next hfound =>
    split
    · exact fun h => by cases h
    · next hpolicy =>
      -- The checks in front of the login are what the invariant asks of the options.
      have hinv : InstallInv options true [⟨.configExists, found⟩] := by
        refine ⟨⟨⟨found, rfl, fun htrue => ?_⟩, fun hgiven hparse => hpolicy ⟨hgiven, hparse⟩⟩,
          ?_, fun _ => ?_⟩
        · by_contra hoptions
          exact hfound ⟨htrue, hoptions⟩
        · exact forall_mem_cons_op rfl fun _ h => by cases h
        · exact forall_mem_cons_op rfl fun _ h => by cases h
      have hinstall : (installRules library options).Follows [⟨.configExists, found⟩]
          (if options.token ≠ "" then InstallCommand.installWithToken library options
            else InstallCommand.installInteractive library options) InstallEnds := by
        split
        · exact follows_installWithToken hinv
        · exact follows_installInteractive hinv
      refine Protocol.Follows.bind (hinstall.mono fun log r h => ?_)
      rcases r with e | _ | _
      · exact fun h => by cases h
      · exact fun h => by cases h
      · exact fun _ => h rfl

/-- The command sends and stores nothing when a configuration is found without `--overwrite` and a
token, or when the update policy is not valid. Every request is sent with verification, whatever
`--no-verify-ssl` says, and at most one deletes something: with `--overwrite`, the device that the
server has just refused to create. -/
theorem install_requests {library : SessionLibrary} {options : InstallOptions} {log : SessionLog}
    {q : SessionM Nat}
    (hrun : Runs memberRead (InstallCommand.handleInstall library options) log q)
    {call : HttpCall} {r : HttpAnswer} {before : SessionLog}
    (hlog : (⟨.http call, r⟩ :: before) <:+ log) :
    Admitted options before ∧ call.verifySsl = true ∧
      ∀ request, call.deletes = some request → Replaces options before request :=
  hrun.obeys (follows_handleInstall library options) hlog

/-- What is saved has been created by the last request, and it is saved once, with the preference
about certificates. The update policy is recorded right after that and before the service is
installed, and the exit code is 0 only after both. -/
theorem install_saves {library : SessionLibrary} {options : InstallOptions} {log : SessionLog}
    {q : SessionM Nat}
    (hrun : Runs memberRead (InstallCommand.handleInstall library options) log q) :
    (∀ saved r before, (⟨.save saved, r⟩ :: before) <:+ log →
      (∀ x ∈ before, x.1.isFinal = false) ∧
      ∃ credentials, Created library before credentials ∧ credentials.isValid = true ∧
        saved = { credentials with verifySsl := !options.noVerifySsl }) ∧
    (∀ written r before, (⟨.writeUpdateSection written, r⟩ :: before) <:+ log →
      ∃ existing saved rest,
        before = ⟨.readUpdateSection, existing⟩ :: ⟨.save saved, .ok ()⟩ :: rest ∧
        Recorded options existing written) ∧
    (∀ r before, (⟨.installService, r⟩ :: before) <:+ log → PolicyRecorded options before) ∧
    (∀ r before, (⟨.startService, r⟩ :: before) <:+ log →
      options.noStart = false ∧ ∃ rest, before = ⟨.installService, .ok true⟩ :: rest) ∧
    (q.result = some (.ok 0) → Installed log) := by
  have hrules := follows_handleInstall library options
  refine ⟨fun saved r before hlog => (hrun.obeys hrules hlog).2, ?_, ?_, ?_, ?_⟩
  · exact fun written r before hlog => hrun.obeys hrules hlog
  · exact fun r before hlog => hrun.obeys hrules hlog
  · exact fun r before hlog => hrun.obeys hrules hlog
  · exact fun hresult => hrun.outcome hrules hresult rfl

/-! ### A sample run -/

/-- A server that accepts the login and creates the device. -/
def creatingServer : HttpCall → HttpAnswer
  | .form _ => .ok { statusCode := 200, body := "\x7b\"access_token\":\"t\"\x7d" }
  | .json request _ =>
    if request.method = "GET" then .error "" else .ok { statusCode := 201, body := "\x7b\x7d" }

/-- An installation with a login, without options: the user is asked for everything. -/
def sampleInstallation : SessionM Nat := InstallCommand.handleInstall sampleLibrary {}

/-- An installation with a login and `--overwrite`, which may replace a device. -/
def sampleOverwrite : SessionM Nat :=
  InstallCommand.handleInstall sampleLibrary { overwrite := true }

/-- The server answers 409 to the creation, and the device is deleted. -/
theorem install_requests_sample : ∃ before call request, HttpCall.deletes call = some request ∧
    Admitted { overwrite := true } before ∧ call.verifySsl = true ∧
      Replaces { overwrite := true } before request := by
  have hlast : (lastCall (sampleLog refusingServer 2 27 sampleOverwrite)).any (fun call =>
      call.deletes.isSome) = true := by decide +kernel
  obtain ⟨call, r, before, hlog, hcall⟩ := exists_of_lastCall hlast
  obtain ⟨request, hrequest⟩ := Option.isSome_iff_exists.mp hcall
  obtain ⟨q, hrun⟩ := sampleSession refusingServer 2 27 sampleOverwrite
  rw [hlog] at hrun
  obtain ⟨hadmitted, hverify, hreplaces⟩ := install_requests hrun (List.suffix_refl _)
  exact ⟨before, call, request, hrequest, hadmitted, hverify, hreplaces request hrequest⟩

/-- The rule at a run in which a device is created and saved. -/
theorem install_saves_sample : ∃ before credentials, Created sampleLibrary before credentials := by
  have hlast : (lastSaved (sampleLog creatingServer 2 27 sampleInstallation)).isSome = true := by
    decide +kernel
  obtain ⟨saved, r, before, hlog⟩ := exists_of_lastSaved hlast
  obtain ⟨q, hrun⟩ := sampleSession creatingServer 2 27 sampleInstallation
  obtain ⟨-, credentials, hcreated, -⟩ :=
    (install_saves hrun).1 saved r before (hlog ▸ List.suffix_refl _)
  exact ⟨before, credentials, hcreated⟩

end ThinrAgent
