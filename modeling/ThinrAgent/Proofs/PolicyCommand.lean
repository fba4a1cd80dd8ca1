import ThinrAgent.Cli.UpdateCommand
import ThinrAgent.Proofs.Settings
import ThinrAgent.Proofs.TwoPartStore

/-!
# `ThinrAgent.Proofs.PolicyCommand`: what `update --policy` changes

The option library fills in the channel `latest` when the command line has none, and
`setUpdatePolicy` takes every channel that is not empty for the choice of the user. So a command
without `--channel` moves the device to `latest`.

`setUpdatePolicy_spec` says what one command does to the stored settings, and
`PolicyRun.Ends.settings` what it does from the command line on. `policyOnly_iff` is about sequences
of commands: they change the policy only exactly when every command without `--channel` finds the
channel `latest`.
-/

set_option autoImplicit false

namespace ThinrAgent

open Effects

/-- The settings that the configuration file holds, with the defaults for what is absent or
invalid. -/
def World.settings {β : Type} (w : World β) (configPath : Path) : UpdateSettings :=
  .fromJson (w.updateSection configPath)

/-- The configuration file exists and holds an object, which may be without an `update` section. -/
def World.HasConfig {β : Type} (w : World β) (configPath : Path) : Prop :=
  ∃ kvs, (w.files configPath).bind Content.parse = some (.obj kvs)

namespace UpdateSettings

/-- Whatever the section says, the settings that are read from it are in range. -/
theorem inRange_fromJson (j : Json) : (fromJson j).InRange where
  channel := validChannel_fromJson j
  checkIntervalH := clampInt_mem j "check_interval_h" (by decide) (by decide)
  rollbackDeadlineS := clampInt_mem j "rollback_deadline_s" (by decide) (by decide)

/-- A new policy and a channel that is valid, where one is given, keep settings in range. -/
theorem InRange.withPolicy {s : UpdateSettings} (h : s.InRange) (policy : UpdatePolicy)
    {channel : String} (hchannel : channel ≠ "" → validChannel channel = true) :
    (s.withPolicy policy channel).InRange where
  channel := by
    show validChannel (if channel ≠ "" then channel else s.channel) = true
    split
    · next hne => exact hchannel hne
    · exact h.channel
  checkIntervalH := h.checkIntervalH
  rollbackDeadlineS := h.rollbackDeadlineS

/-- What a command makes of the settings: an invalid channel is refused. -/
def afterCommand (s : UpdateSettings) (policy : UpdatePolicy) (channel : String) : UpdateSettings :=
  if channel ≠ "" ∧ validChannel channel = false then s else s.withPolicy policy channel

end UpdateSettings

/-- The exit code of a command with the channel. -/
def policyExit (channel : String) : Nat :=
  if channel ≠ "" ∧ validChannel channel = false then 1 else 0

section Command
variable {β : Type} {host : Host β} {A : SysOp β → Choice β → Prop} {w w' : World β}
variable {library : Exc → String} {configPath : Path} {options : UpdateOptions}
variable {policy : UpdatePolicy}

/-- A device with a configuration has the file. -/
theorem World.HasConfig.exists (h : w.HasConfig configPath) :
    (w.files configPath).isSome = true := by
  obtain ⟨kvs, hkvs⟩ := h
  obtain ⟨content, hfile, -⟩ := Option.bind_eq_some_iff.mp hkvs
  rw [hfile]
  rfl

/-- The file after a new section was written. -/
theorem World.settings_of_replaced {tmp : Path} {s : UpdateSettings} (hs : s.InRange)
    (h : World.Replaced tmp configPath (.json ((w.config configPath).set "update" s.toJson)) w w') :
    w'.HasConfig configPath ∧ w'.settings configPath = s := by
  have hobj : ((w.config configPath).set "update" s.toJson).isObject = true :=
    Json.isObject_set _ _ (w.isObject_config configPath)
  constructor
  · rw [World.HasConfig, h.files_target]
    cases hconfig : (w.config configPath).set "update" s.toJson with
    | obj kvs => exact ⟨kvs, rfl⟩
    | _ => rw [hconfig] at hobj; cases hobj
  · rw [World.settings, World.updateSection_eq, World.config_of_replaced h hobj,
      Json.find_set_self _ _ (w.isObject_config configPath), Option.getD_some,
      UpdateSettings.fromJson_toJson hs]

/-- One command, where no operation on the file fails. -/
theorem setUpdatePolicy_spec (hA : StoreWorks A configPath) (hconfig : w.HasConfig configPath)
    (hpolicy : options.policy = policy.toString) :
    cwp (hostMachine host) A (fun _ => True) (setUpdatePolicy library configPath options)
      (fun r w' => (∃ lines, r = .ok (policyExit options.channel, lines)) ∧
        w'.HasConfig configPath ∧
        w'.settings configPath =
          (w.settings configPath).afterCommand policy options.channel) w := by
  have hofString : UpdatePolicy.ofString options.policy = some policy :=
    UpdatePolicy.ofString_eq_some.mpr hpolicy
  unfold setUpdatePolicy
  simp only [hofString]
  by_cases hrefused : options.channel ≠ "" ∧ validChannel options.channel = false
  · rw [if_pos hrefused]
    refine ⟨trivial, ⟨_, by rw [policyExit, if_pos hrefused]⟩, hconfig, ?_⟩
    rw [UpdateSettings.afterCommand, if_pos hrefused]
  · rw [if_neg hrefused]
    refine wp_fsExists trivial ?_ fun hf => absurd hf (hA.exists _)
    rw [hconfig.exists]
    refine wp_readUpdateSection trivial ?_ fun hf =>
      absurd hf (not_or.mpr ⟨hA.exists _, hA.2.2⟩)
    -- The new settings are in range, so they are read back as they were written.
    have hvalid : options.channel ≠ "" → validChannel options.channel = true := fun hne => by
      simpa [hne] using hrefused
    have hrange := (UpdateSettings.inRange_fromJson (w.updateSection configPath)).withPolicy policy
      hvalid
    refine cwp_tryCatch (cwp_bind (cwp_mono writeUpdateSection_spec (fun _ h => h) ?_))
    rintro r w' - ⟨hwrote, hworks⟩
    obtain ⟨kvs, hkvs⟩ := hconfig
    obtain rfl := hworks hA kvs hkvs
    obtain ⟨hconfig', hsettings⟩ := World.settings_of_replaced hrange hwrote
    refine ⟨trivial, ⟨_, by rw [policyExit, if_neg hrefused]⟩, hconfig', ?_⟩
    rw [UpdateSettings.afterCommand, if_neg hrefused]
    exact hsettings

end Command

section Commands
variable {β : Type} (options : OptionLibrary) (library : Exc → String) (configPath : Path)
variable (host : Host β) (build : Build) (user : User) (A : SysOp β → Choice β → Prop)

/-- A command line `update --policy p`, in whatever spelling and order. -/
structure PolicyLine where
  argv : List String
  policy : UpdatePolicy
  /-- The options the library finds behind the command. -/
  args : UpdateArgs
  commandStr : (splitArgs argv {}).commandStr = some "update"
  globals : ∃ globals, options.globals (splitArgs argv {}).globalArgs = .ok globals ∧
    globals.help = false ∧ globals.version = false
  update : options.update (splitArgs argv {}).subArgs = .ok args
  help : args.help = false
  policy_eq : args.policy = some policy.toString

/-- One command with the world before it, the answers of the environment to it, and its result. -/
structure PolicyRun (β : Type) where
  line : PolicyLine options
  before : World β
  choices : List (Choice β)
  result : Except Exc (Option (Nat × List String))
  after : World β

variable {options}

/-- A command line with a policy is parsed as an `update` command with the policy in its
arguments. -/
theorem PolicyLine.parseArguments (l : PolicyLine options) :
    (ThinrAgent.parseArguments options l.argv).command = .update l.args.notify := by
  obtain ⟨globals, hglobals, hhelp, hversion⟩ := l.globals
  simp [ThinrAgent.parseArguments, parseUpdate, hglobals, hhelp, hversion, l.commandStr, l.update,
    l.help]

/-- The channel that the user gives. An empty one changes nothing. -/
def PolicyLine.channel (l : PolicyLine options) : Option String :=
  l.args.channel.filter fun channel => channel ≠ ""

/-- The channel that a command sets, where it names one and the name is valid. -/
def PolicyLine.newChannel (l : PolicyLine options) : Option String :=
  l.channel.filter fun channel => validChannel channel

/-- The channel is no channel, and the command is refused. -/
def PolicyLine.Refused (l : PolicyLine options) : Bool := l.channel.any fun c => !validChannel c

/-- What the settings should be after a command: the policy it names, set by the local user, and the
channel only if it names one. -/
def PolicyLine.expected (l : PolicyLine options) (s : UpdateSettings) : UpdateSettings :=
  if l.Refused then s
  else { s with policy := l.policy, source := .localExplicit, channel := l.channel.getD s.channel }

/-- The program of a command line: what the parsed arguments ask for. -/
def PolicyRun.prog (r : PolicyRun options β) : SysM β (Option (Nat × List String)) :=
  executeUpdate library configPath host build user
    (ThinrAgent.parseArguments options r.line.argv).command

/-- The command comes to its end, and no operation on the file fails. -/
structure PolicyRun.Ends (r : PolicyRun options β) : Prop where
  admits : (hostMachine host).Admits A r.choices
    (r.prog library configPath host build user, r.before)
  result : ((hostMachine host).after r.choices
    (r.prog library configPath host build user, r.before)).1.result = some r.result
  after : ((hostMachine host).after r.choices
    (r.prog library configPath host build user, r.before)).2 = r.after

/-- Commands one after the other. Between two of them nothing writes the file. -/
def PolicyRuns : World β → List (PolicyRun options β) → Prop
  | _, [] => True
  | w, r :: rs => r.before.files configPath = w.files configPath ∧
      r.Ends library configPath host build user A ∧ PolicyRuns r.after rs

/-- A command that finds the settings `s` does what it should. -/
def PolicyRun.Right (s : UpdateSettings) (r : PolicyRun options β) : Prop :=
  r.after.settings configPath = r.line.expected s ∧
    ∃ lines, r.result = .ok (some (if r.line.Refused then 1 else 0, lines))

/-- Every state that is reached from the settings `s` is as it should be. -/
def AsExpected : UpdateSettings → List (PolicyRun options β) → Prop
  | _, [] => True
  | s, r :: rs => r.Right configPath s ∧ AsExpected (r.line.expected s) rs

/-- The last channel that a command has set. -/
def lastChannel (rs : List (PolicyRun options β)) : Option String :=
  (rs.filterMap fun r => r.line.newChannel).getLast?

/-- The commands change the policy only: each does what is expected of it, and the channel at the
end is the one that was named last. -/
structure PolicyOnly (w : World β) (rs : List (PolicyRun options β)) : Prop where
  steps : AsExpected configPath (w.settings configPath) rs
  channel : (((rs.getLast?.map (·.after)).getD w).settings configPath).channel =
    (lastChannel rs).getD (w.settings configPath).channel

/-- Every command without `--channel` finds the channel `latest` in the settings that the ones
before it should have left. -/
def FindsLatest : UpdateSettings → List (PolicyRun options β) → Prop
  | _, [] => True
  | s, r :: rs => (r.line.args.channel = none → s.channel = "latest") ∧
      FindsLatest (r.line.expected s) rs

variable {library configPath host build user A} {w : World β} {r : PolicyRun options β}
variable {rs : List (PolicyRun options β)} {s : UpdateSettings}

/-- The settings are read from the configuration alone, so a world with the same file has the same
settings. -/
theorem World.settings_congr {w' : World β} (h : w'.files configPath = w.files configPath) :
    w'.settings configPath = w.settings configPath := by
  rw [World.settings, World.settings, World.updateSection, World.updateSection, h]

/-- What one command does, from its command line on. -/
theorem PolicyRun.Ends.settings (hends : r.Ends library configPath host build user A)
    (hA : StoreWorks A configPath) (hconfig : r.before.HasConfig configPath) :
    (∃ lines, r.result = .ok (some (policyExit r.line.args.notify.channel, lines))) ∧
      r.after.HasConfig configPath ∧
      r.after.settings configPath =
        (r.before.settings configPath).afterCommand r.line.policy r.line.args.notify.channel := by
  have hpolicy : r.line.args.notify.policy = r.line.policy.toString := by
    rw [UpdateArgs.notify, r.line.policy_eq, Option.getD_some]
  have hne : r.line.args.notify.policy ≠ "" := by
    rw [hpolicy]
    cases r.line.policy <;> decide
  -- The command line leads to one call of `setUpdatePolicy`.
  have hprog : r.prog library configPath host build user =
      setUpdatePolicy library configPath r.line.args.notify >>=
        fun report => .ret (some report) := by
    rw [PolicyRun.prog, r.line.parseArguments, executeUpdate, handleUpdate, if_pos hne]
    rfl
  have hspec : Ensures (hostMachine host) A (r.prog library configPath host build user)
      (fun result w' =>
        (∃ lines, result = .ok (some (policyExit r.line.args.notify.channel, lines))) ∧
          w'.HasConfig configPath ∧ w'.settings configPath =
            (r.before.settings configPath).afterCommand r.line.policy
              r.line.args.notify.channel) r.before := by
    rw [hprog]
    refine ensures_of_cwp (cwp_bind (cwp_mono (setUpdatePolicy_spec hA hconfig hpolicy)
      (fun _ h => h) ?_))
    rintro result w' - ⟨⟨lines, rfl⟩, hw'⟩
    exact ⟨trivial, ⟨lines, rfl⟩, hw'⟩
  have hrun := hspec r.choices hends.admits r.result hends.result
  rwa [hends.after] at hrun

/-- The command refuses the channels of the command line that are not valid, after the default of
the option library is filled in. -/
theorem PolicyLine.refused_iff (l : PolicyLine options) :
    l.args.notify.channel ≠ "" ∧ validChannel l.args.notify.channel = false ↔ l.Refused = true := by
  unfold PolicyLine.Refused PolicyLine.channel UpdateArgs.notify
  cases hchannel : l.args.channel with
  | none =>
    have hlatest : validChannel "latest" = true := by decide
    simp [hlatest]
  | some c =>
    by_cases hc : c = ""
    · simp [hc]
    · simp [hc, Option.filter_some]

/-- The settings after a command are the expected ones exactly when it has a channel or finds
`latest`. -/
theorem PolicyLine.afterCommand_eq_iff (l : PolicyLine options) (s : UpdateSettings) :
    s.afterCommand l.policy l.args.notify.channel = l.expected s ↔
      (l.args.channel = none → s.channel = "latest") := by
  unfold UpdateSettings.afterCommand PolicyLine.expected
  simp only [l.refused_iff]
  -- A channel on the command line is the channel of both sides. Without one the command sets
  -- `latest`, and the user expects the channel that was there.
  cases hchannel : l.args.channel with
  | none =>
    have hgiven : l.args.notify.channel = "latest" := by rw [UpdateArgs.notify, hchannel]; rfl
    have hrefused : ¬l.Refused = true := by
      simp [PolicyLine.Refused, PolicyLine.channel, hchannel]
    rw [if_neg hrefused, if_neg hrefused, hgiven, PolicyLine.channel, hchannel]
    constructor
    · intro heq _
      exact (congrArg UpdateSettings.channel heq).symm
    · intro hlatest
      show { s with policy := l.policy, source := .localExplicit, channel := "latest" } =
        { s with policy := l.policy, source := .localExplicit, channel := s.channel }
      rw [hlatest rfl]
  | some c =>
    have hgiven : l.args.notify.channel = c := by rw [UpdateArgs.notify, hchannel]; rfl
    refine iff_of_true ?_ (fun h => nomatch h)
    split
    · rfl
    · rw [hgiven, UpdateSettings.withPolicy, PolicyLine.channel, hchannel]
      by_cases hc : c = ""
      · simp [hc, Option.filter]
      · simp [hc, Option.filter]

/-- The command does what it should exactly when it has a channel or finds `latest`. -/
theorem PolicyRun.Ends.right_iff (hends : r.Ends library configPath host build user A)
    (hA : StoreWorks A configPath) (hconfig : r.before.HasConfig configPath) :
    r.Right configPath (r.before.settings configPath) ↔
      (r.line.args.channel = none → (r.before.settings configPath).channel = "latest") := by
  obtain ⟨hresult, -, hsettings⟩ := hends.settings hA hconfig
  rw [PolicyRun.Right, hsettings, r.line.afterCommand_eq_iff]
  refine and_iff_left ?_
  simpa only [policyExit, r.line.refused_iff] using hresult

/-- The step lemma, and the induction over the commands. -/
theorem asExpected_iff (hA : StoreWorks A configPath) (hconfig : w.HasConfig configPath)
    (hruns : PolicyRuns library configPath host build user A w rs) :
    AsExpected configPath (w.settings configPath) rs ↔ FindsLatest (w.settings configPath) rs := by
  induction rs generalizing w with
  | nil => exact Iff.rfl
  | cons r rs ih =>
    obtain ⟨hfile, hends, hrest⟩ := hruns
    have hbefore : r.before.HasConfig configPath := by
      rw [World.HasConfig, hfile]
      exact hconfig
    rw [← World.settings_congr hfile, AsExpected, FindsLatest, hends.right_iff hA hbefore]
    refine and_congr_right fun hlatest => ?_
    -- The command did what it should, so the rest starts from the expected settings.
    obtain ⟨-, hafter, -⟩ := hends.settings hA hbefore
    rw [← ((hends.right_iff hA hbefore).mpr hlatest).1]
    exact ih hafter hrest

/-- The channel of the expected settings is the one that the command names, or else the stored
one. -/
theorem PolicyLine.channel_expected (l : PolicyLine options) (s : UpdateSettings) :
    (l.expected s).channel = l.newChannel.getD s.channel := by
  unfold PolicyLine.expected PolicyLine.Refused
  rw [PolicyLine.newChannel]
  cases l.channel with
  | none => rfl
  | some c =>
    by_cases hc : validChannel c = true
    · simp [hc, Option.filter]
    · simp [hc, Option.filter]

/-- The channel after a list of commands is the one the last command with a channel has set. -/
theorem lastChannel_cons (r : PolicyRun options β) (rs : List (PolicyRun options β)) :
    lastChannel (r :: rs) = (lastChannel rs).or r.line.newChannel := by
  unfold lastChannel
  cases hchannel : r.line.newChannel with
  | none => simp only [List.filterMap_cons, hchannel, Option.or_none]
  | some c =>
    simp only [List.filterMap_cons, hchannel, List.getLast?_cons]
    cases (rs.filterMap fun r => r.line.newChannel).getLast? <;> rfl

/-- The last channel that was given is the one in the end. -/
theorem channel_of_asExpected (h : AsExpected configPath (w.settings configPath) rs) :
    (((rs.getLast?.map (·.after)).getD w).settings configPath).channel =
      (lastChannel rs).getD (w.settings configPath).channel := by
  induction rs generalizing w with
  | nil => rfl
  | cons r rs ih =>
    obtain ⟨⟨hsettings, -⟩, hrest⟩ := h
    rw [← hsettings] at hrest
    have hlast : ((r :: rs).getLast?.map (·.after)).getD w =
        (rs.getLast?.map (·.after)).getD r.after := by
      rw [List.getLast?_cons]
      cases rs.getLast? <;> rfl
    rw [hlast, ih hrest, hsettings, r.line.channel_expected, lastChannel_cons]
    cases lastChannel rs <;> rfl

/-- Commands change the policy only, exactly when every command without `--channel` finds the
channel `latest`, since the parser's default for the option is written over the channel that is
stored. -/
theorem policyOnly_iff (options : OptionLibrary) (library : Exc → String) (configPath : Path)
    (host : Host β) (build : Build) (user : User) (A : SysOp β → Choice β → Prop)
    (hA : StoreWorks A configPath) (w : World β) (hconfig : w.HasConfig configPath)
    (rs : List (PolicyRun options β))
    (hruns : PolicyRuns library configPath host build user A w rs) :
    PolicyOnly configPath w rs ↔ FindsLatest (w.settings configPath) rs := by
  constructor
  · exact fun h => (asExpected_iff hA hconfig hruns).mp h.steps
  · intro h
    have hsteps := (asExpected_iff hA hconfig hruns).mpr h
    exact ⟨hsteps, channel_of_asExpected hsteps⟩

end Commands

/-! ### Sample commands -/

section Sample

/-- The options of `update`, in the spelling with a blank. -/
def readUpdateArgs : List String → UpdateArgs → Except String UpdateArgs
  | "--policy" :: policy :: rest, args => readUpdateArgs rest { args with policy := some policy }
  | "--channel" :: channel :: rest, args =>
    readUpdateArgs rest { args with channel := some channel }
  | [], args => .ok args
  | arg :: _, _ => .error ("unrecognised option '" ++ arg ++ "'")

/-- A library that knows the options of `update` and has no global ones. -/
def sampleOptions : OptionLibrary where
  globals args := if args = [] then .ok {} else .error "unrecognised option"
  update args := readUpdateArgs args {}

/-- The command line `thinr-agent update --policy managed`, which names no channel. -/
def samplePolicyLine : PolicyLine sampleOptions where
  argv := ["update", "--policy", "managed"]
  policy := .managed
  args := { policy := some "managed" }
  commandStr := by decide +kernel
  globals := ⟨{}, by decide +kernel, rfl, rfl⟩
  update := by decide +kernel
  help := rfl
  policy_eq := rfl

/-- The command line `thinr-agent update --policy auto --channel latest`, which names the channel
too. -/
def sampleChannelLine : PolicyLine sampleOptions where
  argv := ["update", "--policy", "auto", "--channel", "latest"]
  policy := .automatic
  args := { policy := some "auto", channel := some "latest" }
  commandStr := by decide +kernel
  globals := ⟨{}, by decide +kernel, rfl, rfl⟩
  update := by decide +kernel
  help := rfl
  policy_eq := rfl

/-- A device whose configuration file holds nothing but a channel. -/
def sampleOnChannel (channel : String) : World Nat :=
  .ofFiles (fun p => if p = SYSTEM_CONFIG_PATH then
    some (.json (.obj [("update", .obj [("channel", .str channel)])])) else none)
    { pid := 7, exe := none }

/-- The sample device has a configuration, on whichever channel it is. -/
theorem hasConfig_sampleOnChannel (channel : String) :
    (sampleOnChannel channel).HasConfig SYSTEM_CONFIG_PATH := ⟨_, rfl⟩

/-- No operation answers with an error: the assumption on the environment in the sample runs of this
module. -/
def AllWorks {β : Type} : SysOp β → Choice β → Prop := fun _ c => c.error = none

/-- When every call succeeds the store can be read and written. -/
theorem storeWorks_allWorks {β : Type} {configPath : Path} :
    StoreWorks (AllWorks (β := β)) configPath := by
  have hnone (o : SysOp β) : ¬CanFail AllWorks o := by
    rintro ⟨c, e, hc, he⟩
    rw [AllWorks, he] at hc
    cases hc
  exact ⟨fun o _ _ => hnone o, hnone _, hnone _⟩

/-- The version and the architecture of the agent that runs the commands. -/
def samplePolicyBuild : Build := { version := "1.0.0", binarySuffix := "linux-amd64" }

/-- The commands are run by root, so that the configuration is the system's. -/
def samplePolicyUser : User := { euid := 0, home := none, pwDir := none }

/-- A command that sets a policy and says so. Both of the lines leave the channel `latest`. -/
def samplePolicyRun (line : PolicyLine sampleOptions) (before : World Nat) :
    PolicyRun sampleOptions Nat where
  line := line
  before := before
  choices := List.replicate 30 .ok
  result := .ok (some (0,
    ["Update policy set to " ++ line.policy.toString ++ " (channel latest)."]))
  after := ((hostMachine sampleStoreHost).after (List.replicate 30 .ok)
    (executeUpdate (fun _ => "") SYSTEM_CONFIG_PATH sampleStoreHost samplePolicyBuild
      samplePolicyUser (parseArguments sampleOptions line.argv).command, before)).2

/-- A sample command has ended when its thirty calls have given its result. -/
theorem ends_samplePolicyRun {line : PolicyLine sampleOptions} {before : World Nat}
    (h : ((hostMachine sampleStoreHost).after (List.replicate 30 .ok)
      ((samplePolicyRun line before).prog (fun _ => "") SYSTEM_CONFIG_PATH sampleStoreHost
        samplePolicyBuild samplePolicyUser, before)).1.result =
          some (samplePolicyRun line before).result) :
    (samplePolicyRun line before).Ends (fun _ => "") SYSTEM_CONFIG_PATH sampleStoreHost
      samplePolicyBuild samplePolicyUser AllWorks := by
  refine ⟨admits_of_forall _ (fun c hc o => ?_) _, h, by rw [PolicyRun.prog, samplePolicyRun]⟩
  rw [List.eq_of_mem_replicate hc]
  rfl

/-- The first command moves a device on `develop` to `latest`, as it is told to. -/
def sampleMoved : PolicyRun sampleOptions Nat :=
  samplePolicyRun sampleChannelLine (sampleOnChannel "develop")

/-- The second one finds `latest`, and changes the policy only. -/
def sampleManagedLater : PolicyRun sampleOptions Nat :=
  samplePolicyRun samplePolicyLine sampleMoved.after

/-- Two commands in a row: the first one has a channel and moves the device from `develop` to
`latest`, and the second one, which has none, changes the policy only. -/
theorem policyOnly_iff_sample :
    PolicyOnly SYSTEM_CONFIG_PATH (sampleOnChannel "develop")
      [sampleMoved, sampleManagedLater] := by
  have hruns : PolicyRuns (fun _ => "") SYSTEM_CONFIG_PATH sampleStoreHost samplePolicyBuild
      samplePolicyUser AllWorks (sampleOnChannel "develop") [sampleMoved, sampleManagedLater] :=
    ⟨rfl, ends_samplePolicyRun (by decide +kernel), rfl, ends_samplePolicyRun (by decide +kernel),
      trivial⟩
  exact (policyOnly_iff sampleOptions (fun _ => "") SYSTEM_CONFIG_PATH sampleStoreHost
    samplePolicyBuild samplePolicyUser AllWorks storeWorks_allWorks (sampleOnChannel "develop")
    (hasConfig_sampleOnChannel "develop") _ hruns).mpr
      ⟨by decide +kernel, fun _ => by decide +kernel, trivial⟩

/-- A device on the channel `develop` is moved to `latest`. -/
theorem not_policyOnly_sample :
    PolicyRuns (fun _ => "") SYSTEM_CONFIG_PATH sampleStoreHost samplePolicyBuild samplePolicyUser
        AllWorks (sampleOnChannel "develop")
        [samplePolicyRun samplePolicyLine (sampleOnChannel "develop")] ∧
      ((sampleOnChannel "develop").settings SYSTEM_CONFIG_PATH).channel = "develop" ∧
      ((samplePolicyRun samplePolicyLine (sampleOnChannel "develop")).after.settings
        SYSTEM_CONFIG_PATH).channel = "latest" ∧
      ¬PolicyOnly SYSTEM_CONFIG_PATH (sampleOnChannel "develop")
        [samplePolicyRun samplePolicyLine (sampleOnChannel "develop")] := by
  have hbefore : ((sampleOnChannel "develop").settings SYSTEM_CONFIG_PATH).channel = "develop" := by
    decide +kernel
  have hafter : ((samplePolicyRun samplePolicyLine (sampleOnChannel "develop")).after.settings
      SYSTEM_CONFIG_PATH).channel = "latest" := by
    decide +kernel
  refine ⟨⟨rfl, ends_samplePolicyRun (by decide +kernel), trivial⟩, hbefore, hafter,
    fun honly => ?_⟩
  have hchannel := honly.channel
  rw [hbefore] at hchannel
  exact absurd (hafter.symm.trans hchannel) (by decide +kernel)

end Sample

end ThinrAgent
