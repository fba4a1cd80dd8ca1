import ThinrAgent.Agent.RemoteConfig
import ThinrAgent.Proofs.Cycle

/-!
# `ThinrAgent.Proofs.RemotePolicy`: what the cloud can do to the poll

A device receives payloads of the `config` property, and its poll thread runs cycles. A payload
that arrives while a cycle runs counts from the moment the cycle reads the override, so a run is
a list of payloads and whole cycles, with anything happening to the files in between.

`Decisive` says which payloads decide on the override, and `LastDecisive` which override a list
of payloads leaves. `cycle_quiet` is the opt-out: a cycle under a managed policy performs no
operation beyond the read of the configuration. `UsesSettings` says what the settings decide of
an operation, and `runLocal_usesSettings` that a cycle follows the local ones.
-/

set_option autoImplicit false

namespace ThinrAgent

open Effects

/-! ### The payloads -/

/-- The payload decides on the override: it names a valid policy, it has no `update` section, or it
is no object at all. Every other payload leaves the override as it is. -/
inductive Decisive : Json → Option UpdatePolicy → Prop where
  | sets {payload update : Json} (policy : UpdatePolicy)
      (hupdate : payload.find "update" = some update)
      (hpolicy : update.find "policy" = some (.str policy.toString)) :
      Decisive payload (some policy)
  | notObject {payload : Json} (h : payload.isObject = false) : Decisive payload none
  | absent {payload : Json} (h : payload.contains "update" = false) : Decisive payload none

/-- The override that the payloads leave: the one of the last decisive payload, or the initial
one. -/
def LastDecisive (payloads : List Json) (initial override : Option UpdatePolicy) : Prop :=
  (∃ before payload after, payloads = before ++ payload :: after ∧ Decisive payload override ∧
      ∀ later ∈ after, ∀ o, ¬ Decisive later o) ∨
    (∀ payload ∈ payloads, ∀ o, ¬ Decisive payload o) ∧ override = initial

section Payloads
variable {payload : Json} {payloads : List Json} {initial override o : Option UpdatePolicy}

/-- Without a payload the override stays what it was at the start. -/
theorem LastDecisive.nil (initial : Option UpdatePolicy) : LastDecisive [] initial initial :=
  .inr ⟨by simp, rfl⟩

/-- A payload that decides has the last word. -/
theorem LastDecisive.decisive (h : Decisive payload o) :
    LastDecisive (payloads ++ [payload]) initial o :=
  .inl ⟨payloads, payload, [], rfl, h, by simp⟩

/-- A payload that does not decide leaves the override. -/
theorem LastDecisive.indecisive (h : LastDecisive payloads initial override)
    (hno : ∀ o, ¬ Decisive payload o) :
    LastDecisive (payloads ++ [payload]) initial override := by
  rcases h with ⟨before, decisive, after, rfl, hdecisive, hlater⟩ | ⟨hnone, rfl⟩
  · refine .inl ⟨before, decisive, after ++ [payload], by simp, hdecisive, fun later hl => ?_⟩
    rcases List.mem_append.mp hl with hl | hl
    · exact hlater later hl
    · obtain rfl := List.mem_singleton.mp hl
      exact hno
  · refine .inr ⟨fun later hl => ?_, rfl⟩
    rcases List.mem_append.mp hl with hl | hl
    · exact hnone later hl
    · obtain rfl := List.mem_singleton.mp hl
      exact hno

/-- What a payload does to the poller: a decisive one sets the override, and any other does
nothing. -/
theorem Agent.poller_onConfig (a : Agent) (payload : Json) :
    (∃ o, Decisive payload o ∧
        (a.onConfig payload).poller = a.poller.map fun p => p.setRemotePolicy o) ∨
      (∀ o, ¬ Decisive payload o) ∧ (a.onConfig payload).poller = a.poller := by
  unfold onConfig
  split
  · rename_i hobject
    unfold applyConfig applyUpdate
    cases hupdate : payload.find "update" with
    | none => exact .inl ⟨none, .absent (by simp [Json.contains, hupdate]), rfl⟩
    | some update =>
      -- Without a policy the payload decides nothing.
      have indecisive (hno : ∀ policy : UpdatePolicy,
          update.find "policy" ≠ some (.str policy.toString)) (o : Option UpdatePolicy) :
          ¬ Decisive payload o := by
        rintro (⟨policy, hu, hp⟩ | h | h)
        · obtain rfl : update = _ := Option.some.inj (hupdate.symm.trans hu)
          exact hno policy hp
        · rw [hobject] at h
          cases h
        · simp [Json.contains, hupdate] at h
      simp only
      split
      · rename_i text htext
        cases hpolicy : UpdatePolicy.ofString text with
        | some policy =>
          rw [UpdatePolicy.ofString_eq_some] at hpolicy
          subst hpolicy
          exact .inl ⟨some policy, .sets policy hupdate htext, rfl⟩
        | none =>
          refine .inr ⟨indecisive fun policy hp => ?_, rfl⟩
          obtain rfl : text = policy.toString := by simpa using htext.symm.trans hp
          rw [UpdatePolicy.ofString_eq_some.mpr rfl] at hpolicy
          cases hpolicy
      · rename_i hno
        exact .inr ⟨indecisive fun policy hp => hno _ hp, rfl⟩
  · rename_i hobject
    exact .inl ⟨none, .notObject (by simpa using hobject), rfl⟩

end Payloads

/-! ### A run -/

/-- The agent and the files, as payloads, poll cycles and other programs change them in turn. -/
structure Polling (β : Type) where
  agent : Agent
  world : World β

/-- What happens to a polling agent: a payload arrives, the client changes its state, something
happens to the files, or the poll thread runs a cycle. -/
inductive PollEvent (β : Type) where
  | payload (config : Json)
  | state (state : ClientState)
  | files (world : World β)
  | cycle (answers : List (Choice β))

/-- The payload of an event, and nothing for a poll cycle or a change of the files. -/
def PollEvent.payload? {β : Type} : PollEvent β → Option Json
  | payload config => some config
  | _ => none

/-- The poller after a cycle that has come this far: its interval is set only at the end. -/
def UpdatePoller.ended {β : Type} (p : UpdatePoller) :
    SysM β (CycleResult × Int32) → UpdatePoller
  | .ret r => { p with lastIntervalH := r.2 }
  | _ => p

/-- The end of a cycle does not touch the override, which only a payload sets. -/
@[simp] theorem UpdatePoller.remoteOverride_ended {β : Type} (p : UpdatePoller)
    (prog : SysM β (CycleResult × Int32)) : (p.ended prog).remoteOverride = p.remoteOverride := by
  cases prog <;> rfl

/-- A cycle keeps the path of the configuration. -/
@[simp] theorem UpdatePoller.configPath_ended {β : Type} (p : UpdatePoller)
    (prog : SysM β (CycleResult × Int32)) : (p.ended prog).configPath = p.configPath := by
  cases prog <;> rfl

namespace Polling

variable {β : Type} (host : Host β) (build : Build) (cast : Json.FloatCast) (f : Fractions)
  (user : User)

/-- A payload and a state of the client go to the agent, and a cycle of the poll thread runs against
its answers. The files may change in between. -/
def step (s : Polling β) : PollEvent β → Polling β
  | .payload config => { s with agent := s.agent.onConfig config }
  | .state state =>
    { s with agent := { s.agent with poller := s.agent.poller.map fun p => p.onState state } }
  | .files world => { s with world := world }
  | .cycle cs =>
    match s.agent.poller with
    | none => s
    | some p =>
      let (prog, world) := (hostMachine host).after cs (p.runCycle host build cast f user, s.world)
      { agent := { s.agent with poller := some (p.ended prog) }, world := world }

/-- The device after a list of events, one after another from the left. -/
def run (s : Polling β) (events : List (PollEvent β)) : Polling β :=
  events.foldl (step host build cast f user) s

variable {s : Polling β} {p : UpdatePoller}

/-- One event keeps the invariant of a run, with the payload the event may carry. -/
theorem step_override {initial : Option UpdatePolicy} {payloads : List Json}
    (hp : s.agent.poller = some p) (hlast : LastDecisive payloads initial p.remoteOverride)
    (event : PollEvent β) :
    ∃ p', (s.step host build cast f user event).agent.poller = some p' ∧
      p'.configPath = p.configPath ∧
      LastDecisive (payloads ++ event.payload?.toList) initial p'.remoteOverride := by
  cases event with
  | payload config =>
    simp only [step]
    rcases s.agent.poller_onConfig config with ⟨o, hdecisive, heq⟩ | ⟨hno, heq⟩
    · refine ⟨p.setRemotePolicy o, by rw [heq, hp]; rfl, rfl, ?_⟩
      rw [UpdatePoller.remoteOverride_setRemotePolicy]
      exact .decisive hdecisive
    · exact ⟨p, by rw [heq, hp], rfl, hlast.indecisive hno⟩
  | state state =>
    exact ⟨p.onState state, by simp [step, hp], rfl, by simpa [PollEvent.payload?] using hlast⟩
  | files world => exact ⟨p, hp, rfl, by simpa [PollEvent.payload?] using hlast⟩
  | cycle cs =>
    simp only [step, hp]
    exact ⟨_, rfl, by simp, by simpa [PollEvent.payload?] using hlast⟩

/-- After any run the override is that of the last decisive payload, and the path of the
configuration is the same. -/
theorem run_override (hp : s.agent.poller = some p) (events : List (PollEvent β)) :
    ∃ p', (s.run host build cast f user events).agent.poller = some p' ∧
      p'.configPath = p.configPath ∧
      LastDecisive (events.filterMap PollEvent.payload?) p.remoteOverride p'.remoteOverride := by
  induction events using List.reverseRecOn with
  | nil => exact ⟨p, hp, rfl, .nil _⟩
  | append_singleton events event ih =>
    obtain ⟨p', hp', hpath, hlast⟩ := ih
    obtain ⟨p'', hp'', hpath', hlast'⟩ := step_override host build cast f user hp' hlast event
    refine ⟨p'', ?_, hpath'.trans hpath, ?_⟩
    · rw [run, List.foldl_append]
      exact hp''
    · rw [List.filterMap_append]
      cases hpayload : event.payload? <;> simpa [hpayload] using hlast'

end Polling

/-- The configuration file holds an explicit opt-out: the policy `managed`, set by the local
user. -/
def HoldsOptOut {β : Type} (w : World β) (configPath : Path) : Prop :=
  (w.updateSection configPath).find "policy" = some (.str "managed") ∧
    (w.updateSection configPath).find "policy_source" = some (.str "local_explicit")

/-- The cycle `p` runs against the answers `cs` in `w` performs neither the fetch of a manifest nor
an apply. -/
def Quiet {β : Type} (host : Host β) (build : Build) (cast : Json.FloatCast) (f : Fractions)
    (user : User) (p : UpdatePoller) (w : World β) (cs : List (Choice β)) : Prop :=
  ∀ e ∈ (hostMachine host).performed cs (p.runCycle host build cast f user) w, e.1.polls = false

/-- The cycle can read the configuration file: no answer to a read of it is a failure. -/
def ConfigRead {β : Type} (host : Host β) (user : User) (p : UpdatePoller) (w : World β)
    (path : Path) (cs : List (Choice β)) : Prop :=
  (hostMachine host).Admits (ReadsConfig path) cs (UpdatePoller.readLocal user p.configPath, w)

/-- What the cloud cannot change in the cycle `p` runs against the answers `cs` in `w`. -/
structure Contained {β : Type} (host : Host β) (build : Build) (cast : Json.FloatCast)
    (f : Fractions) (user : User) (p : UpdatePoller) (w : World β) (cs : List (Choice β)) :
    Prop where
  /-- A managed override is in force. -/
  managed : p.remoteOverride = some .managed → Quiet host build cast f user p w cs
  /-- An opt-out that the cycle can read is in force, whatever the override. -/
  optedOut : ∀ path, configPathOf user p.configPath = .ok path → HoldsOptOut w path →
    ConfigRead host user p w path cs → Quiet host build cast f user p w cs
  /-- The settings of the cycle are those of the file, or the defaults when it cannot be read. -/
  settings : ∀ path, configPathOf user p.configPath = .ok path → ∃ settings : UpdateSettings,
    (settings = .fromJson (w.updateSection path) ∨ settings = {}) ∧
    (ConfigRead host user p w path cs → settings = .fromJson (w.updateSection path)) ∧
    (∀ e ∈ (hostMachine host).performed cs (p.runCycle host build cast f user) w,
      UsesSettings build settings e.1) ∧
    ∀ r, ((hostMachine host).after cs (p.runCycle host build cast f user, w)).1 = .ret r →
      r.2 = settings.checkIntervalH

/-- Every cycle is contained: under a managed policy it does nothing beyond the read of the
configuration, and otherwise it follows the local settings. -/
theorem contained {β : Type} (host : Host β) (build : Build) (cast : Json.FloatCast)
    (f : Fractions) (user : User) (p : UpdatePoller) (w : World β) (cs : List (Choice β)) :
    Contained host build cast f user p w cs where
  managed h := by
    refine cycle_quiet fun settings _ => ?_
    rw [h]
    exact effectivePolicy_managed settings
  optedOut path hpath hopt hread := by
    refine cycle_quiet fun settings hsettings => ?_
    rw [readLocal_of_readable hpath hread hsettings]
    exact effectivePolicy_of_optedOut (UpdateSettings.optedOut_fromJson hopt.1 hopt.2) _
  settings path hpath := by
    -- Where the read has come to its end, its settings are the ones of the cycle.
    by_cases hend : ∃ settings, ((hostMachine host).after cs
        (UpdatePoller.readLocal user p.configPath, w)).1 = .ret settings
    · obtain ⟨settings, hsettings⟩ := hend
      have same {settings' : UpdateSettings} (h : ((hostMachine host).after cs
          (UpdatePoller.readLocal user p.configPath, w)).1 = .ret settings') :
          settings' = settings := by
        rw [hsettings] at h
        cases h
        rfl
      have hcases := readLocal_cases hpath hsettings
      have hpos : 0 < settings.rollbackDeadlineS := by
        rcases hcases with rfl | rfl
        · exact UpdateSettings.rollbackDeadlineS_pos _
        · decide
      refine ⟨settings, hcases, fun hread => readLocal_of_readable hpath hread hsettings, ?_, ?_⟩
      · refine runCycle_performed (UsesSettings build settings) (fun _ => trivial)
          (fun _ => trivial) fun settings' h => ?_
        rw [same h]
        exact runLocal_usesSettings hpos
      · intro r hr
        obtain ⟨settings', h, hinterval⟩ := runCycle_interval hr
        rwa [same h] at hinterval
    · refine ⟨_, .inl rfl, fun _ => rfl, ?_, fun r hr => ?_⟩
      · exact runCycle_performed (UsesSettings build _) (fun _ => trivial) (fun _ => trivial)
          fun settings h => absurd ⟨settings, h⟩ hend
      · obtain ⟨settings, h, -⟩ := runCycle_interval hr
        exact absurd ⟨settings, h⟩ hend

/-- What the cloud can do to an agent with a poller, over any run: the override in force is that
of the last decisive payload. The next payload changes no other member, and nothing else of the
next cycle is the cloud's. -/
theorem remotePolicy_contained {β : Type} (host : Host β) (build : Build) (cast : Json.FloatCast)
    (f : Fractions) (user : User) (s : Polling β) (p : UpdatePoller)
    (hp : s.agent.poller = some p) (events : List (PollEvent β)) :
    ∃ p', (s.run host build cast f user events).agent.poller = some p' ∧
      p'.configPath = p.configPath ∧
      LastDecisive (events.filterMap PollEvent.payload?) p.remoteOverride p'.remoteOverride ∧
      (∀ payload, ∃ policy,
        ((s.run host build cast f user events).agent.onConfig payload).poller =
          some { p' with remotePolicy := policy }) ∧
      ∀ cs, Contained host build cast f user p' (s.run host build cast f user events).world cs := by
  obtain ⟨p', hp', hpath, hlast⟩ := Polling.run_override host build cast f user hp events
  refine ⟨p', hp', hpath, hlast, fun payload => ?_, fun cs =>
    contained host build cast f user p' _ cs⟩
  rcases Agent.poller_onConfig (s.run host build cast f user events).agent payload with
    ⟨o, -, heq⟩ | ⟨-, heq⟩
  · rw [heq, hp']
    exact ⟨_, rfl⟩
  · rw [heq, hp']
    exact ⟨p'.remotePolicy, rfl⟩

/-! ### A sample run -/

/-- A configuration file that holds nothing but an explicit opt-out. -/
def sampleOptOut : World Nat :=
  .ofFiles (fun p => if p = SYSTEM_CONFIG_PATH then
      some (.json (.obj [("update", .obj [("policy", .str "managed"),
        ("policy_source", .str "local_explicit")])])) else none)
    { pid := 1, exe := some Layout.system.install }

/-- The agent of a root user, with that file. -/
def samplePolling : Polling Nat :=
  { agent := { poller := some samplePoller }, world := sampleOptOut }

/-- The payload with which the cloud sets the policy to `auto`. -/
def samplePayload : Json := .obj [("update", .obj [("policy", .str "auto")])]

/-- After the payload a cycle that reads the file is quiet. -/
theorem remotePolicy_contained_sample : ∃ p' : UpdatePoller,
    p'.remoteOverride = some .automatic ∧
      Quiet sampleHost sampleBuild .wrap (deviceFraction fun _ => []) sampleRoot p'
        (samplePolling.run sampleHost sampleBuild .wrap (deviceFraction fun _ => []) sampleRoot
          [.payload samplePayload]).world [.ok, .ok, .ok] := by
  obtain ⟨p', hp', hpath, -, -, hcontained⟩ := remotePolicy_contained sampleHost sampleBuild .wrap
    (deviceFraction fun _ => []) sampleRoot samplePolling samplePoller rfl [.payload samplePayload]
  obtain rfl : samplePoller.setRemotePolicy (some .automatic) = p' := Option.some.inj hp'
  refine ⟨_, rfl, (hcontained _).optedOut SYSTEM_CONFIG_PATH rfl ⟨rfl, rfl⟩ ?_⟩
  refine admits_of_forall _ (fun c hc o _ => ?_) _
  obtain rfl : c = .ok := by simpa using hc
  rfl

/-- After the payload a cycle whose read of the file fails fetches the manifest, although the
file holds the opt-out. -/
theorem not_quiet_sample :
    HoldsOptOut sampleOptOut SYSTEM_CONFIG_PATH ∧
      ((hostMachine sampleHost).performed [.ok, .fail (.other 5) none, .ok]
        ((samplePoller.setRemotePolicy (some .automatic)).runCycle sampleHost sampleBuild .wrap
          (deviceFraction fun _ => []) sampleRoot) sampleOptOut).any (fun e => e.1.polls) = true :=
  ⟨⟨rfl, rfl⟩, by decide +kernel⟩

end ThinrAgent
