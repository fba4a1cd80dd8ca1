import ThinrAgent.Proofs.Watchdog
import ThinrAgent.Runtime.UpdatePoller

/-!
# `ThinrAgent.Proofs.Cycle`: what a poll cycle does

The operations of a cycle and the settings it follows, and the rule for the choice of a version:
`Chosen` is all that a cycle has seen of the manifest it asks for.
-/

set_option autoImplicit false

namespace ThinrAgent

open Effects

/-- The operations of the choice of a version: the manifest of the channel, the record of a
rollback, and the clock. -/
inductive ChooseOp {β : Type} (p : UpdatePoller) (settings : UpdateSettings) : SysOp β → Prop where
  | fetch : ChooseOp p settings (.httpGet (manifestUrl settings.channel))
  | reverted : ChooseOp p settings (.read (revertedFile p.stateDir))
  | time : ChooseOp p settings .time

/-- The operations of a cycle after its settings are read: those of the choice, those of the apply,
and the signal that restarts the agent. -/
inductive CycleOp {β : Type} (build : Build) (p : UpdatePoller) (settings : UpdateSettings) :
    SysOp β → Prop where
  | choose {o : SysOp β} (h : ChooseOp p settings o) : CycleOp build p settings o
  | apply (man : Manifest) {o : SysOp β} (h : ApplyOp build (p.request build settings man) o) :
      CycleOp build p settings o
  | sigterm : CycleOp build p settings .raiseSigterm

/-- The operation fetches a manifest, or begins an apply, which no cycle may do behind a closed
gate. -/
def SysOp.polls {β : Type} : SysOp β → Bool
  | httpGet _ => true
  | acquireInProgress => true
  | _ => false

/-- The operation agrees with the settings: it fetches from their channel, and a record it
writes has their deadline. -/
def UsesSettings {β : Type} (build : Build) (settings : UpdateSettings) : SysOp β → Prop
  | .httpGet url => url = manifestUrl settings.channel
  | .httpDownload url _ => url = binaryUrl build settings.channel
  | .writeAll _ content => ∃ j, content = .json j ∧
      j.find "deadline_s" = some (.int settings.rollbackDeadlineS.toInt)
  | _ => True

section Cycle

variable {β α : Type} {host : Host β} {build : Build} {cast : Json.FloatCast} {f : Fractions}
  {p : UpdatePoller} {settings : UpdateSettings}

/-- Under a managed policy a cycle ends with the read of the settings. -/
theorem runLocal_of_managed (h : effectivePolicy settings p.remoteOverride = .managed) :
    (p.runLocal host build cast f settings : SysM β CycleResult) = .ret .normal := by
  unfold UpdatePoller.runLocal UpdatePoller.candidate
  rw [if_pos h]
  rfl

/-- Reading the record of the last rollback is one read of its file. -/
theorem lastReverted_ops {dir : Path} {ok : SysOp β → Prop} (h : ok (.read (revertedFile dir))) :
    AllOps ok (lastReverted dir) := by
  unfold lastReverted
  refine .bind (.single h) fun content => ?_
  cases content with
  | none => trivial
  | some content =>
    simp only [parseRecord]
    split
    · trivial
    · split <;> trivial

/-- The choice of a version asks the channel and reads the record, and does nothing else. -/
theorem candidate_ops : AllOps (ChooseOp p settings)
    (p.candidate cast f settings : SysM β (Option Manifest)) := by
  have fetch : AllOps (ChooseOp (β := β) p settings) (fetchManifest cast settings.channel) := by
    refine .bind (.single .fetch) fun res => ?_
    cases res with
    | error what => trivial
    | response status body => exact .ite (fun _ => trivial) fun _ => trivial
  have notReverted (man : Manifest) : AllOps (ChooseOp (β := β) p settings)
      (p.notReverted man) := by
    refine .bind (lastReverted_ops .reverted) fun rev => ?_
    cases rev with
    | none => trivial
    | some rev => exact .bind (.single .time) fun now => trivial
  -- The gates of the cycle in their order. A closed one ends it without an operation.
  unfold UpdatePoller.candidate
  refine .ite (fun _ => trivial) fun _ => .ite (fun _ => trivial) fun _ => ?_
  refine .bind fetch fun man => ?_
  cases man with
  | none => trivial
  | some man =>
    refine .ite (fun _ => trivial) fun _ => .ite (fun _ => trivial) fun _ => ?_
    refine .bind (notReverted man) fun go => .ite (fun _ => trivial) fun _ => ?_
    exact .bind (.single .time) fun now => .ite (fun _ => trivial) fun _ => trivial

/-- A cycle with settings does what its choice and its apply do. -/
theorem runLocal_ops : AllOps (CycleOp build p settings)
    (p.runLocal host build cast f settings : SysM β CycleResult) := by
  unfold UpdatePoller.runLocal
  refine .bind (candidate_ops.mono fun o ho => .choose ho) fun man => ?_
  cases man with
  | none => trivial
  | some man =>
    refine .bind (applyWithWatchdog_ops.mono fun o ho => .apply man ho) fun ar => ?_
    cases ar.st with
    | updated => exact .bind (.single .sigterm) fun _ => trivial
    | deferred => trivial
    | error => trivial

/-- A cycle follows the settings it was given: it asks only for their channel, and a request has
their deadline. -/
theorem runLocal_usesSettings (hdeadline : 0 < settings.rollbackDeadlineS) :
    AllOps (UsesSettings build settings)
      (p.runLocal host build cast f settings : SysM β CycleResult) := by
  refine runLocal_ops.mono fun o ho => ?_
  cases ho with
  | choose h => cases h <;> trivial
  | apply man h =>
    cases h with
    | download install => rfl
    | swapping h =>
      cases h with
      | mark install startedAt h hc =>
        cases h with
        | writeAll pid content =>
          -- The only write of an apply is the marker of step 7, which has the deadline.
          obtain rfl := hc _ _ rfl
          refine ⟨_, rfl, ?_⟩
          simp [UpdateMarker.toJson, Json.find, List.lookup_cons, pendingMarker,
            UpdatePoller.request,
            hdeadline]
        | _ => trivial
      | _ => trivial
    | _ => trivial
  | _ => trivial

/-- The answers of a cycle that can read the configuration file. -/
def ReadsConfig (configPath : Path) (o : SysOp β) (c : Choice β) : Prop :=
  o = .exists configPath ∨ o = .read configPath → c.error = none

variable {user : User} {w : World β} {path : Path} {cs : List (Choice β)}

/-- The settings of a cycle are those of the `update` section at its path. -/
theorem readLocal_eq (hpath : configPathOf user p.configPath = .ok path) :
    (UpdatePoller.readLocal user p.configPath : SysM β UpdateSettings) =
      readUpdateSection path >>= fun j => .ret (UpdateSettings.fromJson j) := by
  rw [UpdatePoller.readLocal, hpath]
  rfl

/-- The settings that a cycle reads are those of the file, or the defaults when the file cannot
be read. -/
theorem readLocal_cases (hpath : configPathOf user p.configPath = .ok path)
    (hret : ((hostMachine host).after cs (UpdatePoller.readLocal user p.configPath, w)).1 =
      .ret settings) :
    settings = .fromJson (w.updateSection path) ∨ settings = {} := by
  have hspec : cwp (hostMachine host) (anyAnswer _ _) (fun _ => True)
      (UpdatePoller.readLocal user p.configPath)
      (fun r _ => ∀ settings, r = .ok settings →
        settings = .fromJson (w.updateSection path) ∨ settings = {}) w := by
    rw [readLocal_eq hpath]
    refine wp_readUpdateSection trivial ⟨trivial, ?_⟩ fun _ => ⟨trivial, ?_⟩
    · rintro _ ⟨rfl⟩
      exact .inl rfl
    · rintro _ ⟨rfl⟩
      exact .inr (by rfl)
  exact cwp_after_ret hspec (admits_anyAnswer _ cs _) hret settings rfl

/-- A cycle that can read the file reads the settings of the file. -/
theorem readLocal_of_readable (hpath : configPathOf user p.configPath = .ok path)
    (hcs : (hostMachine host).Admits (ReadsConfig path) cs
      (UpdatePoller.readLocal user p.configPath, w))
    (hret : ((hostMachine host).after cs (UpdatePoller.readLocal user p.configPath, w)).1 =
      .ret settings) : settings = .fromJson (w.updateSection path) := by
  have hspec : cwp (hostMachine host) (ReadsConfig path) (fun _ => True)
      (UpdatePoller.readLocal user p.configPath)
      (fun r _ => ∀ settings, r = .ok settings → settings = .fromJson (w.updateSection path))
      w := by
    rw [readLocal_eq hpath]
    refine wp_readUpdateSection trivial ⟨trivial, by rintro _ ⟨rfl⟩; rfl⟩ ?_
    rintro (⟨c, e, hc, he⟩ | ⟨c, e, hc, he⟩)
    · rw [hc (.inl rfl)] at he
      cases he
    · rw [hc (.inr rfl)] at he
      cases he
  exact cwp_after_ret hspec hcs hret settings rfl

/-- The section is read with one lookup of the file and one read. -/
theorem readUpdateSection_ops {ok : SysOp β → Prop} (hexists : ok (.exists path))
    (hread : ok (.read path)) : AllOps ok (readUpdateSection path) := by
  refine .tryCatch (.bind ?_ fun config => trivial) fun _ => trivial
  refine .bind ⟨hexists, fun r => ?_⟩ fun found => .ite (fun _ => trivial) fun _ => ?_
  · cases r <;> trivial
  refine .bind (.single hread) fun content => ?_
  cases content with
  | none => trivial
  | some content =>
    simp only
    split <;> trivial

/-- The operations of a whole cycle: the read of the configuration file, and those of the rest
with the settings that were read. -/
theorem runCycle_performed (ok : SysOp β → Prop) (hexists : ∀ q, ok (.exists q))
    (hread : ∀ q, ok (.read q)) (hrest : ∀ settings,
      ((hostMachine host).after cs (UpdatePoller.readLocal user p.configPath, w)).1 =
        .ret settings → AllOps ok (p.runLocal host build cast f settings)) :
    ∀ e ∈ (hostMachine host).performed cs (p.runCycle host build cast f user) w, ok e.1 := by
  refine performed_bind ?_ fun settings hsettings =>
    .bind (hrest settings hsettings) fun _ => trivial
  unfold UpdatePoller.readLocal
  split
  · trivial
  · exact .bind (readUpdateSection_ops (hexists _) (hread _)) fun _ => trivial

/-- A cycle whose policy is managed does not reach the fetch or the apply. -/
theorem cycle_quiet (hmanaged : ∀ settings,
      ((hostMachine host).after cs (UpdatePoller.readLocal user p.configPath, w)).1 =
        .ret settings → effectivePolicy settings p.remoteOverride = .managed) :
    ∀ e ∈ (hostMachine host).performed cs (p.runCycle host build cast f user) w,
      e.1.polls = false := by
  refine runCycle_performed (fun o => o.polls = false) (fun _ => rfl) (fun _ => rfl) ?_
  intro settings hsettings
  rw [runLocal_of_managed (hmanaged settings hsettings)]
  trivial

/-- The interval a cycle returns is the one of its settings. -/
theorem runCycle_interval {r : CycleResult × Int32}
    (h : ((hostMachine host).after cs (p.runCycle host build cast f user, w)).1 = .ret r) :
    ∃ settings, ((hostMachine host).after cs
      (UpdatePoller.readLocal user p.configPath, w)).1 = .ret settings ∧
        r.2 = settings.checkIntervalH := by
  obtain ⟨settings, hsettings, ds, v, hrest⟩ := after_bind_ret h
  obtain ⟨result, -, ds', v', hend⟩ := after_bind_ret hrest
  refine ⟨settings, hsettings, ?_⟩
  rw [Prog.pure_eq_ret, (hostMachine host).after_of_done ds' (p := .ret _) trivial] at hend
  cases hend
  rfl

/-- A cycle up to the request it builds, with the settings it has read. -/
def UpdatePoller.upToRequest (p : UpdatePoller) (build : Build) (cast : Json.FloatCast)
    (f : Fractions) (user : User) : SysM β (UpdateSettings × Option ApplyRequest) := do
  let settings ← readLocal user p.configPath
  let man ← p.candidate cast f settings
  return (settings, man.map (p.request build settings))

/-- A cycle builds its request, if any, and applies it. -/
theorem runCycle_eq : p.runCycle host build cast f user =
    p.upToRequest build cast f user >>= fun r =>
      (match r.2 with
        | none => .ret .normal
        | some req => UpdatePoller.applyCandidate host build req) >>= fun result =>
          .ret (result, r.1.checkIntervalH) := by
  unfold UpdatePoller.runCycle UpdatePoller.upToRequest UpdatePoller.runLocal
  simp only [Prog.bind_assoc]
  refine congrArg _ (funext fun settings => congrArg _ (funext fun man => ?_))
  cases man <;> rfl

end Cycle

/-! ### The choice of a version -/

/-- What a cycle of `p` in `w` has seen of the manifest it asks for. -/
structure Chosen {β : Type} (A : SysOp β → Choice β → Prop) (p : UpdatePoller)
    (cast : Json.FloatCast) (f : Fractions) (settings : UpdateSettings) (w : World β)
    (man : Manifest) : Prop where
  policy : effectivePolicy settings p.remoteOverride ≠ .managed
  connected : p.connected = true
  published : ∃ c body, A (.httpGet (manifestUrl settings.channel)) c ∧
    c.httpGet? = .response 200 body ∧ man = Manifest.parse cast body
  valid : man.valid = true
  differs : man.version ≠ p.runningVersion
  notSkipped : CanFail A (.read (revertedFile p.stateDir)) ∨ w.reverted p.stateDir = none ∨
    ∃ rev c, w.reverted p.stateDir = some rev ∧ A .time c ∧
      skipRevertedVersion rev man.version (Int64.ofInt c.number) REVERTED_RETRY_COOLDOWN_S = false
  eligible : ∃ c, A .time c ∧
    isEligible (evaluateEligibility f man p.deviceId (Int64.ofInt c.number)) = true

section Rules

variable {β α : Type} {host : Host β} {A : SysOp β → Choice β → Prop} {J : World β → Prop}
  {Q : Except Exc α → World β → Prop} {w : World β} {p : UpdatePoller} {cast : Json.FloatCast}
  {f : Fractions} {settings : UpdateSettings}

/-- A manifest comes from an answer with the status 200. -/
theorem wp_fetchManifest {channel : String} {k : Option Manifest → SysM β α} (hJ : J w)
    (hnone : cwp (hostMachine host) A J (k none) Q w)
    (hk : ∀ c body, A (.httpGet (manifestUrl channel)) c → c.httpGet? = .response 200 body →
      cwp (hostMachine host) A J (k (some (Manifest.parse cast body))) Q w) :
    cwp (hostMachine host) A J (fetchManifest cast channel >>= k) Q w := by
  unfold fetchManifest
  rw [Prog.bind_assoc]
  refine wp_httpGet hJ fun c hc => ?_
  cases hget : c.httpGet? with
  | error what => exact hnone
  | response status body =>
    show cwp _ A J ((if status ≠ 200 then _ else _) >>= k) Q w
    split
    · exact hnone
    · rename_i hstatus
      obtain rfl : status = 200 := not_not.mp hstatus
      exact hk c body hc hget

/-- The check against an earlier rollback. It throws for a record that cannot be converted. -/
theorem wp_notReverted {man : Manifest} {k : Bool → SysM β α} (hJ : J w)
    (hskip : cwp (hostMachine host) A J (k false) Q w)
    (hgo : (CanFail A (.read (revertedFile p.stateDir)) ∨ w.reverted p.stateDir = none ∨
      ∃ rev c, w.reverted p.stateDir = some rev ∧ A .time c ∧ skipRevertedVersion rev man.version
        (Int64.ofInt c.number) REVERTED_RETRY_COOLDOWN_S = false) →
      cwp (hostMachine host) A J (k true) Q w)
    (hthrow : w.RevertedThrows p.stateDir → Readable A (revertedFile p.stateDir) →
      Q (.error .typeError) w) :
    cwp (hostMachine host) A J (p.notReverted man >>= k) Q w := by
  unfold UpdatePoller.notReverted
  rw [Prog.bind_assoc]
  refine wp_lastReverted_of_readable hJ (fun _ _ => ?_) (fun hf => hgo (.inl hf)) hthrow
  cases hrev : w.reverted p.stateDir with
  | none => exact hgo (.inr (.inl hrev))
  | some rev =>
    refine wp_time_of_answer hJ fun c hc => ?_
    show cwp _ A J (k (!skipRevertedVersion rev man.version (Int64.ofInt c.number)
      REVERTED_RETRY_COOLDOWN_S)) Q w
    cases hskipped : skipRevertedVersion rev man.version (Int64.ofInt c.number)
      REVERTED_RETRY_COOLDOWN_S with
    | true => exact hskip
    | false => exact hgo (.inr (.inr ⟨rev, c, hrev, hc, hskipped⟩))

/-- The choice of a version changes nothing, and it throws only where the record of a rollback
cannot be converted. -/
theorem wp_candidate {k : Option Manifest → SysM β α} (hJ : J w)
    (hnone : cwp (hostMachine host) A J (k none) Q w)
    (hsome : ∀ man, Chosen A p cast f settings w man →
      cwp (hostMachine host) A J (k (some man)) Q w)
    (hthrow : w.RevertedThrows p.stateDir → Readable A (revertedFile p.stateDir) →
      Q (.error .typeError) w) :
    cwp (hostMachine host) A J (p.candidate cast f settings >>= k) Q w := by
  unfold UpdatePoller.candidate
  -- Five reasons to choose nothing, in the order of the source.
  split
  · exact hnone
  rename_i hpolicy
  split
  · exact hnone
  rename_i hconnected
  rw [Prog.bind_assoc]
  refine wp_fetchManifest hJ hnone fun c body hc hget => ?_
  simp only
  generalize hman : Manifest.parse cast body = man
  split
  · exact hnone
  rename_i hvalid
  split
  · exact hnone
  rename_i hdiffers
  rw [Prog.bind_assoc]
  refine wp_notReverted hJ hnone (fun hgo => ?_) hthrow
  simp only [Bool.not_true, Bool.false_eq_true, if_false, Prog.bind_assoc]
  refine wp_time_of_answer hJ fun now hnow => ?_
  split
  · exact hnone
  · rename_i heligible
    exact hsome man ⟨hpolicy, by simpa using hconnected, ⟨c, body, hc, hget, hman.symm⟩,
      by simpa using hvalid, hdiffers, hgo, now, hnow, by simpa using heligible⟩

/-- A cycle changes nothing before it has built its request. -/
theorem upToRequest_spec {build : Build} {user : User} :
    cwp (hostMachine host) A (fun v => v = w) (p.upToRequest build cast f user)
      (fun r v => v = w ∧ ∀ settings req, r = .ok (settings, some req) → ∃ man,
        Chosen A p cast f settings w man ∧ req = p.request build settings man) w := by
  have choose (settings : UpdateSettings) : cwp (hostMachine host) A (fun v => v = w)
      (p.candidate cast f settings >>= fun man =>
        .ret (settings, man.map (p.request build settings)))
      (fun r v => v = w ∧ ∀ settings req, r = .ok (settings, some req) → ∃ man,
        Chosen A p cast f settings w man ∧ req = p.request build settings man) w := by
    refine wp_candidate rfl ⟨rfl, rfl, by simp⟩ (fun man hchosen => ⟨rfl, rfl, ?_⟩)
      fun _ _ => ⟨rfl, by simp⟩
    intro settings' req hreq
    cases hreq
    exact ⟨man, hchosen, rfl⟩
  unfold UpdatePoller.upToRequest
  cases hpath : configPathOf user p.configPath with
  | error e =>
    rw [UpdatePoller.readLocal, hpath]
    exact ⟨rfl, rfl, by simp⟩
  | ok path =>
    rw [readLocal_eq hpath, Prog.bind_assoc]
    exact wp_readUpdateSection rfl (choose _) fun _ => choose _

end Rules

/-! ### A sample poller -/

/-- A poller of the version 1 that is connected. -/
def samplePoller : UpdatePoller where
  deviceId := "device"
  configPath := SYSTEM_CONFIG_PATH
  stateDir := Layout.system.stateDir
  runningVersion := "1"
  connected := true

/-- The agent runs as root, so that every path is the system's. -/
def sampleRoot : User := { euid := 0, home := none, pwDir := none }

end ThinrAgent
