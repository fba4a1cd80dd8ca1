import ThinrAgent.Proofs.SetupRules

/-!
# `ThinrAgent.Proofs.InteractiveSetup`: the setup keeps the rules

`follows_run` says that `interactive_setup::run` follows `setupRules`, whatever the user, the server
and the system answer. Most of its parts are a `PlainPart`: they keep the invariant, and nothing
else is known of them. The others say what they leave in the log. A provisioning request leaves the
answer of the server (`Provisioned`), so the loop over a taken identifier knows what was refused
when the user chooses to overwrite it.

The results are read off the log of a run.
-/

set_option autoImplicit false

namespace ThinrAgent

open Effects
open InteractiveSetup

section
variable {library : SessionLibrary} {α : Type}

/-! ### The parts without a promise -/

/-- A part of the setup that only performs plain operations and keeps the invariant of the log. -/
abbrev SetupPlain (library : SessionLibrary) (p : SessionM α) : Prop :=
  PlainPart (SetupMay library) SetupInv p

section Plain

/-- A plain operation keeps the rules of the setup at any time. -/
theorem setup_ask {o : SessionOp} (ho : o.isPlain = true) {Pre : SessionLog → Prop} :
    (setupRules library).Keeps SetupInv Pre (ask o) fun _ _ => True :=
  (setup_plain library).ask ho

/-- A menu without a prompt is a plain operation, as it is not the question about certificates. -/
theorem isPlain_menu (options : List String) : (SessionOp.choose "" options).isPlain = true :=
  decide_eq_true (show "" ≠ sslQuestion by decide)

/-- The default identifier asks the system once, and makes no request. -/
theorem plain_getDefaultDeviceId : SetupPlain library getDefaultDeviceId :=
  .bind (setup_ask rfl) fun _ => .ret _

/-- The default name asks the system once, and makes no request. -/
theorem plain_getDefaultDeviceName : SetupPlain library getDefaultDeviceName :=
  .bind (setup_ask rfl) fun _ => .ret _

/-- An identifier is asked for when there is none, with a plain question. -/
theorem plain_deviceIdOrAsk (deviceId : String) : SetupPlain library (deviceIdOrAsk deviceId) :=
  .ite (.bind (setup_ask rfl) fun _ => .ret _) (.ret _)

/-- The description of the device is two plain questions with their defaults. -/
theorem plain_promptDeviceInfo : SetupPlain library promptDeviceInfo :=
  .bind plain_getDefaultDeviceId fun _ => .bind (setup_ask rfl) fun _ =>
    .bind plain_getDefaultDeviceName fun _ => .bind (setup_ask rfl) fun _ => .ret _

/-- A new product costs two requests that create something, and the rules that are missing. -/
theorem plain_createAndSeed (account : AlarmAccount) (productId productName : String) :
    SetupPlain library (createAndSeed library account productId productName) :=
  .bind (plain_createProduct (setup_plain library) _ _ _ _) fun _ =>
    .ite (.bind (plain_ensureDefaultAlarms (setup_plain library) _) fun _ => .ret _) (.ret _)

/-- The product is listed, chosen or created, and its rules are seeded without `force`. None of this
deletes anything. -/
theorem plain_selectOrCreateProduct (host username accessToken : String) :
    SetupPlain library (selectOrCreateProduct library host username accessToken) := by
  refine .bind (plain_listProducts (setup_plain library) _ _ _) fun listResult => .ite (.ret _) ?_
  refine .bind (.accessOf _ _ _) fun products => ?_
  rcases products with _ | ⟨product, _ | ⟨product', products⟩⟩
  · exact plain_createAndSeed _ _ _
  · exact .bind (plain_ensureDefaultAlarms (setup_plain library) _) fun _ => .ret _
  · refine .bind (setup_ask (isPlain_menu _)) fun choice => ?_
    refine .ite (.bind (plain_ensureDefaultAlarms (setup_plain library) _) fun _ => .ret _) ?_
    refine .ite ?_ (.ret _)
    refine .bind (setup_ask rfl) fun productId => .ite (.ret _) ?_
    exact .bind (setup_ask rfl) fun productName => plain_createAndSeed _ _ _

/-- The product that a provisioning token names is read from the token. -/
theorem plain_productOfToken (token : String) :
    SetupPlain library (productOfToken library token) := by
  refine .tryCatch ?_ fun _ => .ret _
  refine .bind (plain_decodeToken _ _) fun jwtPayload => .bind (.accessOf _ _ _) fun host => ?_
  exact .bind (.accessOf _ _ _) fun username => .ite (plain_selectOrCreateProduct _ _ _) (.ret _)

/-- The name of the user is read from the token. -/
theorem plain_usernameOfToken (accessToken : String) :
    SetupPlain library (usernameOfToken library accessToken) := by
  refine .tryCatch (.bind (plain_decodeToken _ _) fun payload => ?_) fun _ => .throw _
  cases payload.find "usr" with
  | none => exact .throw _
  | some usr => exact .accessOf _ _ _

/-- The menu of ways to authenticate is not the question about insecure connections, so it is
plain. -/
theorem plain_selectAuthMethod : SetupPlain library selectAuthMethod := by
  refine .bind (setup_ask (by decide)) fun choice => ?_
  split <;> exact .ret _

/-- A way is selected when none has been chosen before. -/
theorem plain_methodOrSelect (chosen : Option AuthMethod) :
    SetupPlain library (methodOrSelect chosen) := by
  cases chosen with
  | none => exact plain_selectAuthMethod
  | some method => exact .ret _

end Plain

/-! ### The device -/

variable {Pre : SessionLog → Prop}

/-- The server and the user of a token. -/
theorem value_of_find_getString {payload entry : Json} {key text : String}
    (hfind : payload.find key = some entry) (hget : entry.getString = .ok text) :
    payload.value Json.getString key "" = .ok text := by
  refine Json.value_of_find ?_ hfind hget
  cases payload with
  | obj kvs => rfl
  | _ => cases hfind

/-- The device of a token was refused: the server of the token's own host has answered that it
exists, for the user that the token names. -/
def RefusedByToken (library : SessionLibrary) (token : String) (log : SessionLog)
    (deviceId : String) : Prop :=
  ∃ payload host username,
    decodeJwtPayload library.bio library.parse (utf8 token) = .ok payload ∧
    payload.value Json.getString "svr" "" = .ok host ∧
    payload.value Json.getString "usr" "" = .ok username ∧
    Refused log host username token deviceId

/-- Provisioning with a token, under the rules of the setup: a success has created the device, and a
failure with 409 has been refused to the holder of this token. -/
theorem keeps_autoProvisionWithDeviceId (token deviceId deviceName product : String) :
    (setupRules library).Keeps SetupInv Pre
      ((authManager library).autoProvisionWithDeviceId token deviceId deviceName product)
      fun log result => (result.success = true → Created library log result.credentials ∧
          result.credentials.isValid = true) ∧
        (result.success = false → result.statusCode = 409 →
          RefusedByToken library token log deviceId) := by
  intro log hinv _
  have hnothing : (setupRules library).Follows log
      (.ret { success := false, statusCode := 0 } : SessionM ProvisionResult)
      fun log' r => SetupInv log' ∧ ∀ result, r = .ok result →
        (result.success = true → Created library log' result.credentials ∧
          result.credentials.isValid = true) ∧
        (result.success = false → result.statusCode = 409 →
          RefusedByToken library token log' deviceId) := by
    refine ⟨hinv, fun result hresult => ?_⟩
    cases hresult
    exact ⟨fun h => (by cases h), fun _ h => (by cases h)⟩
  show (setupRules library).Follows log
    (valueOf (decodeJwtPayload library.bio library.parse (utf8 token)) >>= _) _
  cases hpayload : decodeJwtPayload library.bio library.parse (utf8 token) with
  | error e => exact ⟨hinv, fun _ h => by cases h⟩
  | ok payload =>
    rw [valueOf, Prog.pure_eq_ret, Prog.ret_bind]
    -- Both claims are looked up first, and read then.
    cases hsvr : payload.find "svr" with
    | none => exact hnothing
    | some svr =>
      cases husr : payload.find "usr" with
      | none => exact hnothing
      | some usr =>
        show (setupRules library).Follows log
          ((authManager library).accessOf svr svr.getString >>= _) _
        cases hhost : svr.getString with
        | error e =>
          cases e
          exact ⟨hinv, fun _ h => by cases h⟩
        | ok host =>
          show (setupRules library).Follows log
            ((authManager library).accessOf usr usr.getString >>= _) _
          cases husername : usr.getString with
          | error e =>
            cases e
            exact ⟨hinv, fun _ h => by cases h⟩
          | ok username =>
            refine (keeps_provisionDevice (setup_plain library) host username deviceId deviceName
              token product log hinv trivial).mono fun log' r h => ⟨h.1, fun result hresult => ?_⟩
            obtain ⟨hobtained, hrefused⟩ := h.2 result hresult
            exact ⟨hobtained, fun hfailed h409 => ⟨payload, host, username, hpayload,
              value_of_find_getString hsvr hhost, value_of_find_getString husr husername,
              hrefused hfailed h409⟩⟩

/-- The user has just chosen to overwrite a device that was refused. -/
def ChoseOverwrite (refused : SessionLog → Prop) (log : SessionLog) : Prop :=
  ∃ choice before, log = ⟨.choose nextPrompt conflictOptions, choice⟩ :: before ∧ choice.1 = 2 ∧
    refused before

/-- A device may be deleted once the user has chosen to overwrite the one that the server has
refused. The precondition says so, and the rule asks for it. -/
theorem keeps_deleteDevice (host username deviceId accessToken : String) :
    (setupRules library).Keeps SetupInv
      (ChoseOverwrite fun log => Refused log host username accessToken deviceId)
      ((authManager library).deleteDevice host username deviceId accessToken)
      fun _ _ => True := by
  refine .through (fun _ _ => True) ?_ fun response => .ret fun _ _ _ => trivial
  refine (keeps_withFallback (sends_json (.inr (.inr rfl)))).mono ?_ fun _ _ _ _ => trivial
  rintro log _ ⟨choice, before, rfl, hchoice, hrefused⟩ request hrequest
  obtain rfl : AuthManager.deleteDeviceRequest host username deviceId accessToken = request :=
    Option.some.inj hrequest
  exact ⟨[], choice, before, host, username, accessToken, deviceId, rfl,
    fun _ h => (by cases h), hchoice, hrefused, rfl⟩

/-- The same with a token, whose claims give the server and the user of the request. -/
theorem keeps_deleteWithToken (token deviceId : String) :
    (setupRules library).Keeps SetupInv
      (ChoseOverwrite fun log => RefusedByToken library token log deviceId)
      (deleteWithToken library token deviceId) fun _ _ => True := by
  rintro log hinv ⟨choice, before, rfl, hchoice, payload, host, username, hpayload, hhost,
    husername, hrefused⟩
  show (setupRules library).Follows _
    (valueOf (decodeJwtPayload library.bio library.parse (utf8 token)) >>= _) _
  rw [hpayload]
  show (setupRules library).Follows _
    ((authManager library).accessOf payload (payload.value Json.getString "svr" "") >>= _) _
  rw [hhost]
  show (setupRules library).Follows _
    ((authManager library).accessOf payload (payload.value Json.getString "usr" "") >>= _) _
  rw [husername]
  show (setupRules library).Follows _ (if host = "" ∨ username = "" then _ else _) _
  split
  · exact ⟨hinv, fun _ _ => trivial⟩
  · exact keeps_deleteDevice host username deviceId token _ hinv
      ⟨choice, before, rfl, hchoice, hrefused⟩

/-- The loop deletes what was refused, and ends with credentials the server has created. -/
theorem keeps_conflictLoop {deviceName : String}
    {provisionFn : String → String → SessionM ProvisionResult} {deleteFn : String → SessionM Bool}
    (refused : String → SessionLog → Prop)
    (hprovision : ∀ did dname, (setupRules library).Keeps SetupInv (fun _ => True)
      (provisionFn did dname) fun log result =>
        (result.success = true → Created library log result.credentials ∧
          result.credentials.isValid = true) ∧
        (result.success = false → result.statusCode = 409 → refused did log))
    (hdelete : ∀ did, (setupRules library).Keeps SetupInv (ChoseOverwrite (refused did))
      (deleteFn did) fun _ _ => True) (fuel : Nat) (deviceId : String) :
    (setupRules library).Keeps SetupInv (fun _ => True)
      (provisionWithConflictLoop deviceName provisionFn deleteFn fuel deviceId)
      (Obtained library) := by
  induction fuel generalizing deviceId with
  | zero => exact (setup_plain library).unfinished
  | succ fuel ih =>
    refine .bind (plain_deviceIdOrAsk deviceId) fun did => ?_
    refine .bind (hprovision did deviceName) fun result => ?_
    refine .ite (fun hsuccess => .ret fun log _ h => .created (h.1 hsuccess).1) fun hfailed => ?_
    refine .ite (fun h409 => ?_) fun _ => .throw
    have hfailed : result.success = false := by simpa using hfailed
    -- The choice in the menu, with what was refused behind it.
    refine .through (fun log resolution =>
      resolution = .overwrite → ChoseOverwrite (refused did) log) ?_ fun resolution => ?_
    · refine .bind ((setup_plain library).keeps_ask _ (by decide)) fun choice => ?_
      split
      · exact .ret fun _ _ _ h => by cases h
      · next hchoice =>
        refine .ret fun log _ hlog _ => ?_
        obtain ⟨before, rfl, hbefore⟩ := hlog
        exact ⟨choice, before, rfl, hchoice, hbefore.2 hfailed h409⟩
      · exact .ret fun _ _ _ h => by cases h
    · cases resolution with
      | chooseNewId => exact (ih "").mono (fun _ _ _ => trivial) fun _ _ _ h => h
      | goBack => exact .throw
      | overwrite =>
        refine .bind ((hdelete did).mono (fun _ _ h => h rfl) fun _ _ _ h => h) fun deleted => ?_
        refine .ite (fun _ => ?_) fun _ => ih ""
        refine .bind (hprovision did deviceName) fun retry => ?_
        exact .ite (fun hsuccess => .ret fun log _ h => .created (h.1 hsuccess).1)
          fun _ => (ih "").mono (fun _ _ _ => trivial) fun _ _ _ h => h

/-! ### The ways to authenticate -/

/-- The loop over a taken identifier obtains its credentials from a creation. It is the loop lemma
with the requests of a user. -/
theorem keeps_provisionWithConflictResolution (fuel : Nat)
    (host username initialDeviceId deviceName accessToken product : String) :
    (setupRules library).Keeps SetupInv (fun _ => True)
      (provisionWithConflictResolution library fuel host username initialDeviceId deviceName
        accessToken product) (Obtained library) :=
  keeps_conflictLoop (fun did log => Refused log host username accessToken did)
    (fun did dname =>
      keeps_provisionDevice (setup_plain library) host username did dname accessToken product)
    (fun did => keeps_deleteDevice host username did accessToken) fuel initialDeviceId

/-- The way with a password obtains its credentials from a creation. Everything before the loop is
plain. -/
theorem keeps_passwordFlowAuth (fuel : Nat) :
    (setupRules library).Keeps SetupInv (fun _ => True) (passwordFlowAuth library fuel)
      (Obtained library) := by
  refine .bind (setup_ask rfl) fun host => .bind (setup_ask rfl) fun username => ?_
  refine .bind (setup_ask rfl) fun password => ?_
  refine .bind (plain_oauthPasswordFlow (setup_plain library) _ _ _) fun result => ?_
  refine .ite (fun _ => .throw) fun _ => ?_
  refine .bind plain_promptDeviceInfo fun info => ?_
  exact .bind (plain_selectOrCreateProduct _ _ _) fun productId =>
    keeps_provisionWithConflictResolution _ _ _ _ _ _ _

/-- So does the way with a provisioning token. -/
theorem keeps_autoProvisionAuth (fuel : Nat) :
    (setupRules library).Keeps SetupInv (fun _ => True) (autoProvisionAuth library fuel)
      (Obtained library) := by
  refine .bind (setup_ask rfl) fun token => ?_
  refine .bind (PlainPart.tryCatch (plain_decodeToken _ token) fun _ => .throw _) fun payload => ?_
  refine .bind plain_promptDeviceInfo fun info => ?_
  refine .bind (plain_productOfToken token) fun productId => ?_
  exact keeps_conflictLoop (fun did log => RefusedByToken library token log did)
    (fun did dname => keeps_autoProvisionWithDeviceId token did dname productId)
    (fun did => keeps_deleteWithToken token did) fuel info.1

/-- So does the way with a browser, whatever number of rounds the poll takes. -/
theorem keeps_deviceFlowAuth (fuel : Nat) :
    (setupRules library).Keeps SetupInv (fun _ => True) (deviceFlowAuth library fuel)
      (Obtained library) := by
  refine .bind (setup_ask rfl) fun host => ?_
  refine .bind (plain_startDeviceFlow (setup_plain library) _ _) fun deviceFlow => ?_
  refine .ite (fun _ => .throw) fun _ => ?_
  refine .bind (plain_pollDeviceToken (setup_plain library) _ _ _ _ _ _) fun pollResult => ?_
  refine .ite (fun _ => .throw) fun _ => .bind plain_promptDeviceInfo fun info => ?_
  refine .bind (plain_usernameOfToken _) fun username => ?_
  exact .bind (plain_selectOrCreateProduct _ _ _) fun productId =>
    keeps_provisionWithConflictResolution _ _ _ _ _ _ _

/-- Credentials that are typed in have been obtained from the user. They are the one kind that no
request has created. -/
theorem keeps_directCredentialsAuth :
    (setupRules library).Keeps SetupInv (fun _ => True) directCredentialsAuth
      (Obtained library) := by
  have h := setup_plain library
  refine .bind (h.keeps_ask _ rfl) fun host => .bind (h.keeps_ask _ rfl) fun deviceUser => ?_
  refine .bind (h.keeps_ask _ rfl) fun deviceId => ?_
  refine .bind (h.keeps_ask _ rfl) fun deviceToken => ?_
  refine .ret fun log _ hlog => ?_
  obtain ⟨log₃, rfl, log₂, rfl, log₁, rfl, log₀, rfl, -⟩ := hlog
  exact .typed host deviceUser deviceId deviceToken (show _ = ([] : SessionLog) ++ _ from rfl)
    fun _ h => by cases h

/-- Each of the four ways obtains its credentials. -/
theorem keeps_authenticateWith (fuel : Nat) (method : AuthMethod) :
    (setupRules library).Keeps SetupInv (fun _ => True) (authenticateWith library fuel method)
      (Obtained library) := by
  cases method with
  | passwordFlow => exact keeps_passwordFlowAuth fuel
  | autoProvision => exact keeps_autoProvisionAuth fuel
  | deviceFlow => exact keeps_deviceFlowAuth fuel
  | directCredentials => exact keeps_directCredentialsAuth

/-- The loop around the ways, which tries again after a failure, obtains its credentials from the
attempt that has worked. The induction is on the rounds. -/
theorem keeps_authenticate (inner fuel : Nat) (chosen : Option AuthMethod) :
    (setupRules library).Keeps SetupInv (fun _ => True) (authenticate library inner fuel chosen)
      (Obtained library) := by
  induction fuel generalizing chosen with
  | zero => exact (setup_plain library).unfinished
  | succ fuel ih =>
    refine .bind (plain_methodOrSelect chosen) fun method => ?_
    -- A cancelled way leaves the loop, every other failure is offered again.
    refine .through (fun log credentials =>
      ∀ c, credentials = some c → Obtained library log c) ?_ fun credentials => ?_
    · refine .tryCatch ?_ fun e => ?_
      · refine .bind (keeps_authenticateWith inner method) fun c => .ret fun log _ h c' hc' => ?_
        cases hc'
        exact h
      · cases e with
        | setupCancelled text => exact .throw
        | runtimeError text => exact .ret fun _ _ _ _ h => by cases h
    · cases credentials with
      | some c => exact .ret fun _ _ h => h c rfl
      | none =>
        refine .bind (setup_ask (by decide)) fun choice => ?_
        split
        · exact ih none
        · exact .throw
        · exact ih (some method)

/-! ### The end -/

/-- The user has left after a connection test without saving, which ends the setup with success
too. -/
def LeftUnsaved (log : SessionLog) : Prop :=
  ∃ choice : OptionNumber afterTestOptions, choice.1 = 3 ∧
    (⟨.choose "" afterTestOptions, choice⟩ : Event session) ∈ log

section End
variable {log : SessionLog} {credentials : DeviceCredentials}

/-- The credentials are saved with the user's decision. -/
theorem follows_saveWithDecision (hinv : SetupInv log)
    (hobtained : Obtained library log credentials) (hvalid : credentials.isValid = true) :
    (setupRules library).Follows log (saveWithDecision credentials) fun log' r =>
      ∃ b, r = .ok b ∧ (b = true → ∃ saved rest, log' = ⟨.save saved, .ok ()⟩ :: rest) := by
  refine ⟨trivial, fun decision hread => ?_⟩
  obtain rfl : decision = SessionLog.decision log := hread
  refine ⟨⟨credentials, hobtained.cons rfl, hvalid, ?_, (hinv.cons rfl rfl rfl).early⟩, ?_⟩
  · rw [hinv.member, consent_cons]
    show _ = { credentials with verifySsl := decide (SessionLog.consent log ≠ some true) }
    have hverify := hobtained.verifySsl
    rcases SessionLog.consent log with _ | _ | _
    · exact congrArg (fun v => { credentials with verifySsl := v }) hverify
    · exact congrArg (fun v => { credentials with verifySsl := v }) hverify
    · rfl
  · intro (answer : Except String Unit) _
    cases answer with
    | ok u => exact ⟨true, rfl, fun _ => ⟨_, _, rfl⟩⟩
    | error text => exact ⟨false, rfl, fun h => by cases h⟩

/-- The service is installed after a successful save, and started after it is installed. -/
theorem follows_installAsService (hinv : SetupInv log)
    (hobtained : Obtained library log credentials) (hvalid : credentials.isValid = true) :
    (setupRules library).Follows log (InteractiveSetup.installAsService credentials) fun log' r =>
      r = .ok true → Saved log' := by
  refine Protocol.Follows.bind ((follows_saveWithDecision hinv hobtained hvalid).mono
    fun log₁ r h₁ => ?_)
  obtain ⟨saved, rfl, hsaved⟩ := h₁
  cases saved with
  | false => exact fun h => by cases h
  | true =>
    obtain ⟨c, rest, rfl⟩ := hsaved rfl
    refine ⟨⟨c, rest, rfl⟩, fun (installed : Except String Bool) _ => ?_⟩
    rcases installed with text | _ | _
    · exact fun h => by cases h
    · exact fun h => by cases h
    · refine ⟨⟨_, rfl⟩, fun (started : Except String Bool) _ => ?_⟩
      cases started with
      | error text => exact fun h => by cases h
      | ok b => exact fun _ => ⟨c, .tail _ (.tail _ (.head _))⟩

/-- The second option saves credentials that have been obtained and are valid, and reports success
only when it has. -/
theorem follows_saveConfigurationOnly (hinv : SetupInv log)
    (hobtained : Obtained library log credentials) (hvalid : credentials.isValid = true) :
    (setupRules library).Follows log (InteractiveSetup.saveConfigurationOnly credentials)
      fun log' r => r = .ok true → Saved log' := by
  refine (follows_saveWithDecision hinv hobtained hvalid).mono fun log' r h => fun hr => ?_
  obtain ⟨b, rfl, hsaved⟩ := h
  obtain ⟨c, rest, rfl⟩ := hsaved (Except.ok.inj hr)
  exact ⟨c, .head _⟩

/-- A session that ends with success has saved, or has been told to leave without saving. -/
theorem follows_finish (option : MainMenuOption) (hinv : SetupInv log)
    (hobtained : Obtained library log credentials) (hvalid : credentials.isValid = true) :
    (setupRules library).Follows log (finish option credentials) fun log' r =>
      r = .ok true → Saved log' ∨ LeftUnsaved log' := by
  cases option with
  | installService =>
    exact (follows_installAsService hinv hobtained hvalid).mono fun _ _ h => fun hr => .inl (h hr)
  | configureStandalone =>
    exact (follows_saveConfigurationOnly hinv hobtained hvalid).mono
      fun _ _ h => fun hr => .inl (h hr)
  | exit => exact fun h => by cases h
  | testConnection =>
    refine ⟨trivial, fun (connected : Bool) _ => ?_⟩
    cases connected with
    | false => exact fun h => by cases h
    | true =>
      refine ⟨fun h => absurd h (by decide), fun (choice : OptionNumber afterTestOptions) _ => ?_⟩
      have hinv' := (hinv.plain (o := .testConnection credentials) rfl true).plain
        (o := .choose "" afterTestOptions) (isPlain_menu _) choice
      have hobtained' : Obtained library (⟨.choose "" afterTestOptions, choice⟩ ::
          ⟨.testConnection credentials, true⟩ :: log) credentials :=
        (hobtained.cons rfl).cons rfl
      -- The menu has three options.
      obtain ⟨n, hn⟩ := choice
      have hbounds : 1 ≤ n ∧ n ≤ 3 := hn
      obtain rfl | rfl | rfl : n = 1 ∨ n = 2 ∨ n = 3 := by omega
      · exact (follows_installAsService hinv' hobtained' hvalid).mono
          fun _ _ h => fun hr => .inl (h hr)
      · exact (follows_saveConfigurationOnly hinv' hobtained' hvalid).mono
          fun _ _ h => fun hr => .inl (h hr)
      · exact fun _ => .inr ⟨⟨3, hn⟩, rfl, .head _⟩

end End

/-- The main menu is not the question about insecure connections, so it is plain. -/
theorem plain_showMainMenu : SetupPlain library InteractiveSetup.showMainMenu := by
  refine .bind (setup_ask (isPlain_menu _)) fun choice => ?_
  split <;> exact .ret _

/-- The setup follows the rules, and it reports success only after a save, or when the user leaves
after a successful test. -/
theorem follows_run (library : SessionLibrary) (fuel : Nat) :
    (setupRules library).Follows [] (InteractiveSetup.run library fuel) fun log r =>
      ∃ b, r = .ok b ∧ (b = true → Saved log ∨ LeftUnsaved log) := by
  refine Protocol.Follows.tryCatch (Protocol.Follows.mono
    (Q := fun log r => r = .ok true → Saved log ∨ LeftUnsaved log) ?_ fun log r h => ?_)
  · refine plain_showMainMenu.follows_bind SetupInv.start trivial ?_ fun _ _ _ h => by cases h
    intro log₁ option hinv₁ _
    split
    · exact fun h => by cases h
    refine (keeps_authenticate fuel fuel none).follows_bind hinv₁ trivial ?_
      fun _ _ _ h => by cases h
    intro log₂ credentials hinv₂ hobtained
    split
    · exact fun h => by cases h
    · next hvalid => exact follows_finish option hinv₂ hobtained (by simpa using hvalid)
  · -- The handler of the setup gives `false`.
    cases r with
    | ok b => exact ⟨b, rfl, fun hb => h (by rw [hb])⟩
    | error e => exact ⟨false, rfl, fun h => by cases h⟩

/-! ### The runs -/

/-- An event that answers the question about insecure connections. -/
def isAnswer (x : Event session) : Bool := (x.1.consent x.2).isSome

/-- A question that is asked only when nobody has asked before is asked once. -/
theorem countP_isAnswer_le_one {log : SessionLog}
    (h : ∀ x before, (x :: before) <:+ log → isAnswer x = true →
      SessionLog.consent before = none) : log.countP isAnswer ≤ 1 := by
  induction log with
  | nil => exact Nat.zero_le 1
  | cons x log ih =>
    have hlog := ih fun y before hy => h y before (hy.trans (List.suffix_cons x log))
    rw [List.countP_cons]
    split
    · next hx =>
      have hnone : log.countP isAnswer = 0 := by
        rw [List.countP_eq_zero]
        intro y hy
        have hy := List.findSome?_eq_none_iff.mp (h x log (List.suffix_refl _) hx) y hy
        rw [isAnswer, hy]
        exact Bool.false_ne_true
      omega
    · omega

/-- Without verification a request is only repeated, after it has failed with an error of the secure
connection and the user has accepted. The user is asked at most once, and the configuration that is
saved gives up the verification exactly if the user has accepted. -/
theorem insecure_needs_consent {library : SessionLibrary} {fuel : Nat} {log : SessionLog}
    {q : SessionM Bool} (hrun : Runs memberRead (InteractiveSetup.run library fuel) log q) :
    (∀ call r before, (⟨.http call, r⟩ :: before) <:+ log → call.verifySsl = false →
      Insecure before call) ∧
    log.countP isAnswer ≤ 1 ∧
    ∀ saved r before, (⟨.save saved, r⟩ :: before) <:+ log →
      (saved.verifySsl = false ↔ SessionLog.consent before = some true) := by
  refine ⟨?_, countP_isAnswer_le_one ?_, ?_⟩
  · intro call r before hlog hverify
    exact (hrun.obeys (follows_run library fuel) hlog).1 hverify
  · rintro ⟨o, r⟩ before hlog hanswer
    have hmay := hrun.obeys (follows_run library fuel) hlog
    cases o with
    | choose prompt options =>
      refine hmay ?_
      by_contra hprompt
      rw [isAnswer, SessionOp.consent, if_neg hprompt] at hanswer
      cases hanswer
    | _ => cases hanswer
  · intro saved r before hlog
    obtain ⟨credentials, -, -, rfl, -⟩ := hrun.obeys (follows_run library fuel) hlog
    show decide (SessionLog.consent before ≠ some true) = false ↔ _
    rw [decide_eq_false_iff_not, not_not]

/-- The only requests that delete something delete a device that the server has just refused to
create because it exists, right after the user has chosen to overwrite it. -/
theorem deletes_what_was_refused {library : SessionLibrary} {fuel : Nat} {log : SessionLog}
    {q : SessionM Bool} (hrun : Runs memberRead (InteractiveSetup.run library fuel) log q)
    {request : JsonRequest} {verifySsl : Bool} {r : HttpAnswer} {before : SessionLog}
    (hlog : (⟨.http (.json request verifySsl), r⟩ :: before) <:+ log)
    (hdelete : request.method = "DELETE") : Overwriting before request :=
  (hrun.obeys (follows_run library fuel) hlog).2 request (if_pos hdelete)

/-- What is saved is valid and comes from the user or from the last request, it is saved once, the
service is installed only after that and started only after it is installed. A setup that ends has a
result, and reports success only if it has saved or the user wanted it to leave without. -/
theorem saves_what_was_obtained {library : SessionLibrary} {fuel : Nat} {log : SessionLog}
    {q : SessionM Bool} (hrun : Runs memberRead (InteractiveSetup.run library fuel) log q) :
    (∀ saved r before, (⟨.save saved, r⟩ :: before) <:+ log → Saves library before saved) ∧
    (∀ r before, (⟨.installService, r⟩ :: before) <:+ log →
      ∃ saved rest, before = ⟨.save saved, .ok ()⟩ :: rest) ∧
    (∀ r before, (⟨.startService, r⟩ :: before) <:+ log →
      ∃ rest, before = ⟨.installService, .ok true⟩ :: rest) ∧
    ∀ r, q.result = some r → ∃ b, r = .ok b ∧ (b = true → Saved log ∨ LeftUnsaved log) :=
  ⟨fun _ _ _ hlog => hrun.obeys (follows_run library fuel) hlog,
    fun _ _ hlog => hrun.obeys (follows_run library fuel) hlog,
    fun _ _ hlog => hrun.obeys (follows_run library fuel) hlog,
    fun _ hr => hrun.outcome (follows_run library fuel) hr⟩

/-! ### Sample runs -/

section Sample

/-- A setup that may go around its menus once. -/
def sampleSetup : SessionM Bool := InteractiveSetup.run sampleLibrary 1

/-- A login fails with an error of the secure connection, the user accepts, and it is sent again. -/
theorem insecure_needs_consent_sample :
    ∃ before call, call.verifySsl = false ∧ Insecure before call := by
  have hlast : (lastCall (sampleLog (fun _ => .error "SSL") 2 10 sampleSetup)).any (fun call =>
      !call.verifySsl) = true := by decide +kernel
  obtain ⟨call, r, before, hlog, hcall⟩ := exists_of_lastCall hlast
  obtain ⟨q, hrun⟩ := sampleSession (fun _ => .error "SSL") 2 10 sampleSetup
  have hverify : call.verifySsl = false := by simpa using hcall
  exact ⟨before, call, hverify,
    (insecure_needs_consent hrun).1 call r before (hlog ▸ List.suffix_refl _) hverify⟩

/-- The rule at a run in which a device is refused by the server and then overwritten. -/
theorem deletes_what_was_refused_sample :
    ∃ before request, request.method = "DELETE" ∧ Overwriting before request := by
  have hlast : (lastCall (sampleLog refusingServer 2 31 sampleSetup)).any (fun call =>
      call.deletes.isSome) = true := by decide +kernel
  obtain ⟨call, r, before, hlog, hcall⟩ := exists_of_lastCall hlast
  obtain ⟨q, hrun⟩ := sampleSession refusingServer 2 31 sampleSetup
  cases call with
  | form request => cases hcall
  | json request verifySsl =>
    have hdelete : request.method = "DELETE" := by
      by_contra hmethod
      rw [HttpCall.deletes, if_neg hmethod] at hcall
      cases hcall
    have hsuffix : (⟨.http (.json request verifySsl), r⟩ :: before : SessionLog) <:+
        sampleLog refusingServer 2 31 sampleSetup := hlog ▸ List.suffix_refl _
    exact ⟨before, request, hdelete, deletes_what_was_refused hrun hsuffix hdelete⟩

/-- The rule at a run in which credentials are typed in and saved. -/
theorem saves_what_was_obtained_sample : ∃ before saved, Saves sampleLibrary before saved := by
  have hlast : (lastSaved (sampleLog (fun _ => .error "") 4 8 sampleSetup)).isSome = true := by
    decide +kernel
  obtain ⟨saved, r, before, hlog⟩ := exists_of_lastSaved hlast
  obtain ⟨q, hrun⟩ := sampleSession (fun _ => .error "") 4 8 sampleSetup
  exact ⟨before, saved,
    (saves_what_was_obtained hrun).1 saved r before (hlog ▸ List.suffix_refl _)⟩

end Sample

end

end ThinrAgent
