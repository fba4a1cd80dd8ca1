import ThinrAgent.Cli.CommandHandler
import ThinrAgent.Cli.UpdateCommand
import ThinrAgent.Proofs.Checksum

/-!
# `ThinrAgent.Proofs.StateDir`: where the marker is written, and where it is read

An update is applied by the automatic poll of a running agent, by its `update` resource, or by the
command line of some user. Each computes the state directory on its own. `RunningAgent` is an
agent with the path of its configuration file, whatever command line gave it, and
`Caller.stateDir` is the directory in which a caller writes the marker. `handedOver_iff` says for
which callers the next start of the agent reads that marker, and clears it later: always for the
poll, and for the other two when the default directory of their user is the directory of the
agent's configuration.
-/

set_option autoImplicit false

namespace ThinrAgent

open Effects

/-- An agent that `user` started with the value `arg` of `--config`, or with the empty text for
the default configuration. -/
structure RunningAgent where
  user : User
  arg : Path
  configPath : Path
  stateDir : Path
  expanded : configPathOf user arg = .ok configPath
  located : agentStateDir user configPath = .ok stateDir

/-- Who applies an update: the poll of the agent, its `update` resource for a channel, or the
command line of a user with some value of `--config`. -/
inductive Caller where
  | poll (p : UpdatePoller)
  | resource (channel : String)
  | cli (user : User) (arg : Path) (channel : String)

/-- The members of a poller that the agent has set. -/
def RunningAgent.pollerOf (a : RunningAgent) (p : UpdatePoller) : UpdatePoller :=
  { p with configPath := a.configPath, stateDir := a.stateDir }

namespace Caller

variable {β : Type}

/-- The directory in which the caller writes the marker: the agent's own, or the default one of its
user. -/
def stateDir (a : RunningAgent) : Caller → Except Exc Path
  | poll _ => .ok a.stateDir
  | resource _ => defaultStateDir a.user
  | cli user _ _ => defaultStateDir user

/-- The caller's program, and whether it has applied an update in the end. -/
def prog (host : Host β) (build : Build) (cast : Json.FloatCast) (f : Fractions)
    (library : Exc → String) (a : RunningAgent) : Caller → SysM β Bool
  | poll p => do
    return decide ((← (a.pollerOf p).runCycle host build cast f a.user).1 = .restarting)
  | resource channel => do
    return decide ((← updateResource a.user build host library channel).status = "updated")
  | cli user _ channel => do
    return decide ((← handleUpdateNow user build host library channel).status = "updated")

/-- The command of the caller `cli` is `handle_update` with `--apply` or `--now`: it shows no
settings then, and reports what the run of the updater has given. -/
theorem handleUpdate_now {host : Host β} {build : Build} {user : User} {library : Exc → String}
    {configPath : Path} {options : UpdateOptions} (hpolicy : options.policy = "")
    (hnow : (options.apply || options.now) = true) :
    handleUpdate library configPath host build user options =
      handleUpdateNow user build host library options.channel >>= fun result =>
        .ret (reportRun result) := by
  unfold handleUpdate showSettings
  rw [hpolicy, hnow]
  rfl

/-- The caller is the poll, or the default configuration of its user lies where the agent's
does: both directories have the same marker file. Paths are compared as they are spelled. Two
spellings of one file count as two files here, as the source passes them on. -/
def Agrees (a : RunningAgent) : Caller → Prop
  | poll _ => True
  | resource _ => (defaultStateDir a.user).map stateFile = .ok (stateFile a.stateDir)
  | cli user _ _ => (defaultStateDir user).map stateFile = .ok (stateFile a.stateDir)

/-- A caller with a state directory agrees with the agent exactly when the two have the same marker
file. -/
theorem agrees_iff {a : RunningAgent} {caller : Caller} {dir : Path}
    (h : caller.stateDir a = .ok dir) : caller.Agrees a ↔ stateFile dir = stateFile a.stateDir := by
  cases caller with
  | poll p =>
    cases h
    exact iff_of_true trivial rfl
  | resource channel =>
    have hdir : defaultStateDir a.user = .ok dir := h
    simp [Agrees, hdir, Except.map]
  | cli user arg channel =>
    have hdir : defaultStateDir user = .ok dir := h
    simp [Agrees, hdir, Except.map]

end Caller

/-! ### The agent -/

section Agent

variable {β : Type} {host : Host β}

/-- The boot check of an agent is made in its state directory. -/
theorem createAgent_eq (a : RunningAgent) (certs : String) (build : Build)
    (credentials : DeviceCredentials) :
    (createAgent a.user certs build credentials a.configPath :
      SysM β (UpdateWatchdog × UpdatePoller)) =
        checkBoot a.stateDir build.version >>= fun outcome =>
          match outcome with
          | .revertedExit => .throw .revertedRestartRequired
          | .proceed => initAgent a.user certs build credentials a.configPath a.stateDir := by
  unfold createAgent
  split
  · next e herror => cases a.located.symm.trans herror
  · next dir hdir =>
    cases a.located.symm.trans hdir
    rfl

/-- The agent, started again in some world, has made this watchdog and this poller. -/
def RunningAgent.Creates (a : RunningAgent) (host : Host β) (wd : UpdateWatchdog)
    (p : UpdatePoller) : Prop :=
  ∃ certs build credentials cs w, ((hostMachine host).after cs
    (createAgent a.user certs build credentials a.configPath, w)).1 = .ret (wd, p)

/-- The watchdog and the poller of an agent have its state directory. -/
theorem RunningAgent.Creates.dirs {a : RunningAgent} {wd : UpdateWatchdog} {p : UpdatePoller}
    (h : a.Creates host wd p) : wd.stateDir = a.stateDir ∧ a.pollerOf p = p := by
  obtain ⟨certs, build, credentials, cs, w, hret⟩ := h
  rw [createAgent_eq] at hret
  obtain ⟨outcome, -, ds, v, hret⟩ := after_bind_ret hret
  cases outcome with
  | revertedExit =>
    rw [(hostMachine host).after_of_done ds (p := .throw _) trivial] at hret
    cases hret
  | proceed =>
    simp only [initAgent] at hret
    split at hret
    · rw [(hostMachine host).after_of_done ds (p := .throw _) trivial] at hret
      cases hret
    -- The constructor step by step, up to the members that it leaves.
    · obtain ⟨_, -, ds₁, v₁, hret⟩ := after_bind_ret hret
      obtain ⟨_, -, ds₂, v₂, hret⟩ := after_bind_ret hret
      obtain ⟨watchdog, hcreate, ds₃, v₃, hret⟩ := after_bind_ret hret
      obtain ⟨_, -, ds₄, v₄, hret⟩ := after_bind_ret hret
      rw [Prog.pure_eq_ret, (hostMachine host).after_of_done ds₄ (p := .ret _) trivial] at hret
      cases hret
      refine ⟨?_, rfl⟩
      have hspec := cwp_after_ret create_spec (admits_anyAnswer _ ds₂ _) hcreate
      rcases hspec.2 wd rfl with rfl | ⟨-, rfl⟩ <;> simp

end Agent

/-! ### One update -/

/-- From `w` to `w'` the marker file that a start in `dir` reads was written, and now holds a
pending marker. -/
def SeenAtBoot {β : Type} (dir : Path) (w w' : World β) : Prop :=
  w'.files (stateFile dir) ≠ w.files (stateFile dir) ∧
    ∃ m, w'.marker dir = some m ∧ m.phase = .pending

section Update

variable {β : Type} {host : Host β} {A : SysOp β → Choice β → Prop} {w w' : World β} {L : Layout}
  {build : Build} {req : ApplyRequest} {b : β}

/-- A run that has swapped has found no marker. -/
theorem Layout.Reached.absent (h : L.Reached build req host A w w')
    (hswap : L.Swapped build req b w w') : w.files (L.path .state) = none := by
  cases h with
  | refused hs =>
    exact absurd (hs.mem_of_renamedSince hswap.renamed).1 List.not_mem_nil
  | unswapped absent _ => exact absent
  | swapped _ absent _ _ _ => exact absent

/-- A marker file in another directory is none of the files that an update writes, apart from the
installed binary. -/
theorem Layout.stateFile_not_mem_work {dir : Path} {pid : Nat}
    (hne : stateFile dir ≠ L.path .state) :
    stateFile dir ∉ L.path .state :: L.work pid := by
  have hlast : lastChar (stateFile dir) = some 'e' := by
    rw [stateFile, lastChar_pathJoin _ (by decide)]
    rfl
  have ne_of {file : Path} {c : Char} (hc : lastChar file = some c) (h : c ≠ 'e') :
      stateFile dir ≠ file := by
    refine ne_of_lastChar ?_
    rw [hlast, hc]
    exact fun heq => h (Option.some.inj heq).symm
  have hnew : lastChar (L.path .new) = some 'w' := lastChar_append _ (by decide)
  have hprev : lastChar (L.path .prev) = some 'v' := lastChar_append _ (by decide)
  have hprevTmp : lastChar (L.path .prevTmp) = some 'p' := lastChar_append _ (by decide)
  simp only [Layout.work, List.mem_cons, List.not_mem_nil, or_false, not_or]
  exact ⟨hne, ne_of hnew (by decide), ne_of hprevTmp (by decide), ne_of hprev (by decide),
    (tempPath_ne_stateFile _ _ _).symm⟩

/-- The next start sees the update exactly when it reads the marker file of the update. -/
theorem seenAtBoot_of_swapped {dir : Path} (habsent : w.files (L.path .state) = none)
    (hswap : L.Swapped build req b w w') :
    SeenAtBoot dir w w' ↔ stateFile L.stateDir = stateFile dir := by
  obtain ⟨t, hstate⟩ := hswap.state
  constructor
  · rintro ⟨hchanged, m, hm, -⟩
    by_contra hne
    have hwork : stateFile dir ∉ L.path .state :: L.work w.proc.pid :=
      Layout.stateFile_not_mem_work (Ne.symm hne)
    have hmem : stateFile dir = L.path .install := by
      by_contra hinstall
      exact hchanged (hswap.scratch.files (List.not_mem_cons_of_ne_of_not_mem hinstall hwork))
    -- The installed binary is no marker.
    have hfile : w'.files (stateFile dir) = some (.image b) := by
      rw [hmem, World.files_eq, hswap.install]
      rfl
    simp [World.marker, hfile, Content.marker, Content.parse, Except.toOption] at hm
  · intro heq
    have hfile : w'.files (stateFile dir) = some (L.pendingContent build req t) := by
      rw [← heq]
      exact hstate
    refine ⟨?_, _, World.marker_of_files hfile, rfl⟩
    rw [hfile, ← heq, L.stateFile_stateDir, habsent]
    simp

end Update

section Callers

variable {β : Type} {host : Host β} {build : Build} {cast : Json.FloatCast} {f : Fractions}
  {library : Exc → String} {A : SysOp β → Choice β → Prop} {w : World β} {L : Layout}

/-- From `w` to `w'` an update was swapped in, over no earlier marker. -/
def Layout.Applied (L : Layout) (build : Build) (w w' : World β) : Prop :=
  w.files (L.path .state) = none ∧ ∃ req b, L.Swapped build req b w w'

/-- An apply that reports `updated` has swapped the binary and left its marker. -/
theorem apply_applied (req : ApplyRequest) (hdir : req.stateDir = L.stateDir)
    (hexe : w.proc.binaryPath = L.path .install) :
    cwp (hostMachine host) A (fun _ => True) (applyWithWatchdog host build req)
      (fun r v => ∀ res, r = .ok res → res.st = .updated → L.Applied build w v) w := by
  refine cwp_mono (applyWithWatchdog_spec hdir fun _ => hexe) (fun _ _ => trivial) ?_
  rintro r v hreached hended res hr hst
  obtain ⟨b, -, -, hswap, -⟩ := hended res hr hst
  exact ⟨hreached.absent hswap, req, b, hswap⟩

/-- A cycle that restarts the agent has swapped. -/
theorem runCycle_applied {p : UpdatePoller} {user : User} (hdir : p.stateDir = L.stateDir)
    (hexe : w.proc.binaryPath = L.path .install) :
    cwp (hostMachine host) A (fun _ => True) (p.runCycle host build cast f user)
      (fun r v => ∀ result, r = .ok result → result.1 = .restarting → L.Applied build w v) w := by
  rw [runCycle_eq]
  refine cwp_bind (cwp_mono upToRequest_spec (fun _ _ => trivial) ?_)
  rintro r v - ⟨rfl, hreq⟩
  cases r with
  | error e => simp
  | ok r =>
    obtain ⟨settings, req⟩ := r
    cases req with
    | none => exact ⟨trivial, by rintro _ ⟨rfl⟩ h; cases h⟩
    | some req =>
      -- The request goes to the apply, and only its success restarts the agent.
      obtain ⟨man, -, rfl⟩ := hreq settings req rfl
      simp only
      unfold UpdatePoller.applyCandidate
      rw [Prog.bind_assoc]
      refine cwp_bind (cwp_mono (apply_applied (p.request build settings man) hdir hexe)
        (fun _ _ => trivial) ?_)
      rintro r v - hres
      cases r with
      | error e => simp
      | ok ar =>
        simp only
        cases hst : ar.st with
        | updated =>
          refine ⟨trivial, fun _ _ => ⟨trivial, ?_⟩⟩
          rintro _ ⟨rfl⟩ -
          exact hres ar rfl hst
        | deferred => exact ⟨trivial, by rintro _ ⟨rfl⟩ h; cases h⟩
        | error => exact ⟨trivial, by rintro _ ⟨rfl⟩ h; cases h⟩

/-- A call of `run` that reports an update has swapped. -/
theorem run_applied {user : User} {act : Action} {channel : String} {origin : UpdateOrigin}
    (hdir : defaultStateDir user = .ok L.stateDir) (hexe : w.proc.binaryPath = L.path .install) :
    cwp (hostMachine host) A (fun _ => True) (run host build user library act channel origin)
      (fun r v => ∀ result, r = .ok result → result.status = "updated" →
        L.Applied build w v) w := by
  -- Every way out before the apply reports another status.
  have none {r : RunResult} {v : World β} (h : r.status ≠ "updated") :
      cwp (hostMachine host) A (fun _ => True) (.ret r : SysM β RunResult)
        (fun r v => ∀ result, r = .ok result → result.status = "updated" → L.Applied build w v) v :=
    ⟨trivial, by rintro _ ⟨rfl⟩ h'; exact absurd h' h⟩
  unfold run
  refine cwp_bind (cwp_mono (latest_spec (R := fun _ => True) fun _ _ _ _ _ _ => trivial)
    (fun _ _ => trivial) ?_)
  rintro _ v - ⟨rfl, latest, rfl, -⟩
  cases latest with
  | error e => exact none (by simp)
  | ok latest =>
    show cwp _ A _ (runLatest host build user act channel origin latest) _ v
    unfold runLatest
    split
    · exact none (by simp)
    simp only
    split
    · exact none (by simp)
    split
    · exact none (by simp)
    rw [hdir]
    refine cwp_bind (cwp_mono
      (apply_applied (runRequest build channel origin L.stateDir latest) rfl hexe)
      (fun _ _ => trivial) ?_)
    rintro r v' - hres
    cases r with
    | error e => simp
    | ok ar =>
      refine ⟨trivial, ?_⟩
      rintro _ ⟨rfl⟩ h
      refine hres ar rfl ?_
      revert h
      unfold RunResult.ofApply
      split
      · exact fun _ => ‹_›
      · simp
      · simp

/-- A caller that has applied an update has swapped in its own state directory. -/
theorem Caller.applied {a : RunningAgent} {caller : Caller}
    (hdir : caller.stateDir a = .ok L.stateDir) (hexe : w.proc.binaryPath = L.path .install) :
    cwp (hostMachine host) A (fun _ => True) (caller.prog host build cast f library a)
      (fun r v => r = .ok true → L.Applied build w v) w := by
  have finish {α : Type} {p : SysM β α} {good : α → Prop} [DecidablePred good]
      (h : cwp (hostMachine host) A (fun _ => True) p
        (fun r v => ∀ result, r = .ok result → good result → L.Applied build w v) w) :
      cwp (hostMachine host) A (fun _ => True) (p >>= fun result => .ret (decide (good result)))
        (fun r v => r = .ok true → L.Applied build w v) w := by
    refine cwp_bind (cwp_mono h (fun _ h => h) ?_)
    rintro r v - hr
    cases r with
    | error e => simp
    | ok result => exact ⟨trivial, fun heq => hr result rfl (by simpa using heq)⟩
  cases caller with
  | poll p =>
    have hp : (a.pollerOf p).stateDir = L.stateDir := Except.ok.inj hdir
    exact finish (runCycle_applied hp hexe)
  | resource channel => exact finish (run_applied hdir hexe)
  | cli user arg channel => exact finish (run_applied hdir hexe)

end Callers

/-- From `w` to `w'` the marker of an update in `dir` was handed over to the next start of the
agent: its boot check sees the marker, and its watchdog is the one that clears it. -/
structure HandedOver {β : Type} (host : Host β) (a : RunningAgent) (dir : Path) (w w' : World β) :
    Prop where
  seen : SeenAtBoot a.stateDir w w'
  cleared : ∀ wd p, a.Creates host wd p → wd.markerPath = stateFile dir

/-- For every way an agent was started and every caller that has applied an update: the marker is
handed over to the next start of the agent exactly when the caller is the poll or its default
directory is the agent's. -/
theorem handedOver_iff {β : Type} (host : Host β) (build : Build) (cast : Json.FloatCast)
    (f : Fractions) (library : Exc → String) (L : Layout) (a : RunningAgent) (caller : Caller)
    (hdir : caller.stateDir a = .ok L.stateDir) (w : World β)
    (hexe : w.proc.binaryPath = L.path .install) (cs : List (Choice β))
    (hend : ((hostMachine host).after cs (caller.prog host build cast f library a, w)).1 =
      .ret true) :
    HandedOver host a L.stateDir w
        ((hostMachine host).after cs (caller.prog host build cast f library a, w)).2 ↔
      caller.Agrees a := by
  have hspec : cwp (hostMachine host) (anyAnswer _ _) (fun _ => True)
      (caller.prog host build cast f library a) (fun r v => r = .ok true → L.Applied build w v) w :=
    Caller.applied hdir hexe
  obtain ⟨habsent, req, b, hswap⟩ := cwp_after_ret hspec (admits_anyAnswer _ cs _) hend rfl
  rw [Caller.agrees_iff hdir]
  constructor
  · exact fun h => (seenAtBoot_of_swapped habsent hswap).mp h.seen
  · intro hsame
    refine ⟨(seenAtBoot_of_swapped habsent hswap).mpr hsame, fun wd p hcreates => ?_⟩
    rw [UpdateWatchdog.markerPath, hcreates.dirs.1, hsame]

/-! ### Sample runs -/

/-- The system's agent, started with a configuration that is not the default one. -/
def sampleElsewhere : RunningAgent where
  user := sampleRoot
  arg := "/opt/thinr/config.json"
  configPath := "/opt/thinr/config.json"
  stateDir := "/opt/thinr"
  expanded := rfl
  located := by decide +kernel

/-- An update to the version 2 by the command line of the super user. -/
def sampleCli : SysM Nat Bool × World Nat :=
  (hostMachine sampleHost).after
    ([.body (.response 200 (some (.obj [("version", .str "2")]))), .ok, .ok, .ok,
      .http (.response 200 1) (some (.image 2))] ++ List.replicate 16 .ok)
    ((Caller.cli sampleRoot "/opt/thinr/config.json" "latest").prog sampleHost sampleBuild .wrap
      (deviceFraction fun _ => []) (fun _ => "") sampleElsewhere, sampleWorld)

/-- Root updates an agent whose configuration is elsewhere and whose state directory is therefore
not the one that the update uses. -/
theorem handedOver_iff_sample :
    HandedOver sampleHost sampleElsewhere "/etc/thinr-agent" sampleWorld sampleCli.2 ↔
      (Caller.cli sampleRoot "/opt/thinr/config.json" "latest").Agrees sampleElsewhere :=
  handedOver_iff sampleHost sampleBuild .wrap (deviceFraction fun _ => []) (fun _ => "") .system
    sampleElsewhere (.cli sampleRoot "/opt/thinr/config.json" "latest") (by decide +kernel)
    sampleWorld rfl _ (Prog.result_eq_ok.mp (by decide +kernel))

/-- The update is applied, and the agent's next start finds no marker. The marker lies in the
default directory. -/
theorem not_handedOver_sample :
    sampleCli.1.result = some (.ok true) ∧
      sampleCli.2.marker sampleElsewhere.stateDir = none ∧
      (sampleCli.2.marker "/etc/thinr-agent").map UpdateMarker.phase = some .pending := by
  decide +kernel

end ThinrAgent
