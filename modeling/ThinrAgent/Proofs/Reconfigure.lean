import ThinrAgent.Cli.Reconfigure
import ThinrAgent.Effects.GiveUp
import ThinrAgent.Proofs.TwoPartStore

/-!
# `ThinrAgent.Proofs.Reconfigure`: what `reconfigure` keeps of the update policy

`handleReconfigure` takes the `update` section out of the configuration, runs the setup and writes
the section back. `takeUpdateSection_end`, `interactiveSetup_spec` and `restoreUpdateSection_end`
say what the three parts do to the configuration files, and `sectionKept_iff` in which runs that
leave a configuration of the setup its section is the one from before.
-/

set_option autoImplicit false

namespace ThinrAgent

open Effects

/-! ### Programs that give up -/

section GiveUp

variable {β α : Type} {host : Host β} {A : SysOp β → Choice β → Prop} {F : Except Exc α → Prop}

/-- An operation after whose failure only outcomes in `F` are left. -/
theorem givesUp_of_error {o : SysOp β} {k : o.Res → SysM β α}
    (hA : ∀ o c, c.error = none → A o c)
    (hF : ∀ w c e, c.error = some e → Ends F (k (exec host w o c).1))
    (hk : ∀ r, GivesUp (hostMachine host) A F (k r)) :
    GivesUp (hostMachine host) A F (.call o k : SysM β α) := by
  refine fun w c => ⟨fun hc => ?_, hk _⟩
  cases he : c.error with
  | none => exact absurd (hA o c he) hc
  | some e => exact hF w c e he

/-- A check that may throw, in front of a program that gives up. The check gives up by throwing, so
`F` has to hold of its exception. -/
theorem givesUp_fsExists {p : Path} {k : Bool → SysM β α} (hA : ∀ o c, c.error = none → A o c)
    (hF : F (.error .filesystemError)) (hk : ∀ b, GivesUp (hostMachine host) A F (k b)) :
    GivesUp (hostMachine host) A F (fsExists p >>= k) := by
  refine givesUp_of_error hA (fun w c e he => ?_) fun r => ?_
  · simp only [exec, he]
    exact hF
  · cases r with
    | none => trivial
    | some b => exact hk b

/-- The answers with which a restored section reaches the file: every call works, but for the number
of the process and the directory's `fsync`. -/
def RestoreWorks : SysOp β → Choice β → Prop :=
  fun o c => o ≠ .getpid → (∀ d, o ≠ .fsyncDir d) → c.error = none

/-- An answer without an error is one that `RestoreWorks` allows, whatever is asked for. -/
theorem restoreWorks_of_ok (o : SysOp β) (c : Choice β) (h : c.error = none) : RestoreWorks o c :=
  fun _ _ => h

/-- An answer without an error is one that `CanRead` allows, whatever is asked for. -/
theorem canRead_of_ok {configPath : Path} (o : SysOp β) (c : Choice β) (h : c.error = none) :
    CanRead configPath o c := fun _ => h

/-- `writeAtomic` returns `false` when one of the operations that it needs fails. It needs neither
its process id nor the sync of the directory. -/
theorem givesUp_writeAtomic {path : Path} {content : Content β} {mode : Nat}
    (hA : ∀ o c, c.error = none → A o c) (hpid : ∀ c, A .getpid c)
    (hdir : ∀ d c, A (.fsyncDir d) c) :
    GivesUp (hostMachine host) A (fun r => r = .ok false) (writeAtomic path content mode) := by
  have abandon (tmp : Path) : Ends (fun r => r = .ok false)
      (do let _ ← fsRemove tmp
          return false : SysM β Bool) := fun _ => rfl
  have abandoning (tmp : Path) : GivesUp (hostMachine host) A (fun r => r = .ok false)
      (do let _ ← fsRemove tmp
          return false : SysM β Bool) :=
    givesUp_of_error hA (fun _ _ _ _ => rfl) fun _ => trivial
  -- The end of the function, after the loop and its sync: every call of it but the removal and
  -- the sync of the directory is needed.
  have finish (tmp : Path) (synced : Bool) :
      GivesUp (hostMachine host) A (fun r => r = .ok false) (do
        let closed ← close tmp
        if !(synced && closed) then
          let _ ← fsRemove tmp
          return false
        if (← fsRename tmp path).isSome then
          let _ ← fsRemove tmp
          return false
        fsyncDir (parentDir path)
        return true : SysM β Bool) := by
    refine givesUp_of_error hA (fun w c e he => ?_) fun closed => ?_
    · simp only [exec, he, Option.isNone_some]
      cases synced <;> exact abandon tmp
    · refine .ite (abandoning tmp) ?_
      refine givesUp_of_error hA (fun w c e he => ?_) fun renamed => ?_
      · simp only [exec, he]
        exact abandon tmp
      · exact .ite (abandoning tmp) (givesUp_call (hdir _) fun _ => trivial)
  unfold writeAtomic
  refine givesUp_call hpid fun pid => ?_
  refine givesUp_of_error hA (fun w c e he => ?_) fun opened => .ite trivial ?_
  · simp only [exec, he]
    rfl
  refine givesUp_of_error hA (fun w c e he => ?_) fun (written : Bool) => ?_
  · simp only [exec, he]
    exact fun _ => abandon _
  refine .ite ?_ (finish _ false)
  refine givesUp_of_error hA (fun w c e he => ?_) fun synced => finish _ synced
  simp only [exec, he]
  exact fun _ => abandon _

/-- The outcome of the program is an exception, whichever it is. -/
def Thrown (r : Except Exc α) : Prop := ∃ e, r = .error e

/-- The creation of the configuration's directory throws when a call of it fails. -/
theorem givesUp_ensureConfigDirectory {configPath : Path} (hA : ∀ o c, c.error = none → A o c) :
    GivesUp (hostMachine host) A Thrown (ensureConfigDirectory configPath) := by
  refine givesUp_fsExists hA ⟨_, rfl⟩ fun found => .ite ?_ trivial
  refine givesUp_of_error hA (fun w c e he => ?_) fun (made : Option Unit) => .ite trivial trivial
  simp only [exec, he]
  exact ⟨_, rfl⟩

/-- The read of the configuration throws when a call of it fails. A missing file is no failure, it
reads as an empty object. -/
theorem givesUp_readRaw {configPath : Path} (hA : ∀ o c, c.error = none → A o c) :
    GivesUp (hostMachine host) A Thrown (readRaw configPath) := by
  refine givesUp_fsExists hA ⟨_, rfl⟩ fun found => .ite trivial ?_
  refine givesUp_of_error hA (fun w c e he => ?_) fun (read : Option (Content β)) => ?_
  · simp only [exec, he]
    exact ⟨_, rfl⟩
  · cases read with
    | none => trivial
    | some content =>
      simp only [Prog.bind]
      split <;> trivial

/-- The write of the configuration throws when a call of it fails, but for the number of the
process, which is always there, and the sync of the directory, whose failure the source ignores. -/
theorem givesUp_writeRaw {configPath : Path} {config : Json}
    (hA : ∀ o c, c.error = none → A o c) (hpid : ∀ c, A .getpid c)
    (hdir : ∀ d c, A (.fsyncDir d) c) :
    GivesUp (hostMachine host) A Thrown (writeRaw configPath config) := by
  refine (givesUp_ensureConfigDirectory hA).bind (fun _ => nofun) (fun e _ => ⟨e, rfl⟩) fun _ => ?_
  refine (givesUp_writeAtomic hA hpid hdir).bind (fun b hb => ?_) (fun e he => nomatch he) fun b =>
    .ite trivial trivial
  obtain rfl : b = false := Except.ok.inj hb
  exact ⟨_, rfl⟩

/-- The section is written back by a read and a write, so it throws when a call fails that
`RestoreWorks` asks for. -/
theorem givesUp_writeUpdateSection {configPath : Path} {updateObj : Json} :
    GivesUp (hostMachine host) RestoreWorks Thrown (writeUpdateSection configPath updateObj) := by
  refine givesUp_fsExists restoreWorks_of_ok ⟨_, rfl⟩ fun found => .ite trivial ?_
  exact (givesUp_readRaw restoreWorks_of_ok).bind (fun _ => nofun) (fun e _ => ⟨e, rfl⟩)
    fun _ => givesUp_writeRaw restoreWorks_of_ok (fun _ hpid _ => absurd rfl hpid)
      fun _ _ _ hdir => absurd rfl (hdir _)

/-- A section that cannot be read is taken for the empty one. -/
theorem givesUp_readUpdateSection {configPath : Path} (hA : ∀ o c, c.error = none → A o c) :
    GivesUp (hostMachine host) A (fun r => r = .ok (.obj [])) (readUpdateSection configPath) := by
  have hsection : GivesUp (hostMachine host) A Thrown (do
      let config ← readRaw configPath
      return (config.find "update").getD (.obj []) : SysM β Json) :=
    (givesUp_readRaw hA).bind (fun _ => nofun) (fun e _ => ⟨e, rfl⟩) fun _ => trivial
  exact hsection.tryCatch (fun _ => nofun) (fun _ _ => rfl) fun _ => trivial

/-- The removal throws when it cannot look whether the file is there. -/
theorem givesUp_removeConfig {configPath : Path} :
    GivesUp (hostMachine host) (CanRead configPath) Thrown (removeConfig configPath) := by
  refine givesUp_fsExists canRead_of_ok ⟨_, rfl⟩ fun found => .ite ?_ trivial
  exact givesUp_call (fun _ h => by rcases h with h | h <;> cases h)
    fun (e : Option Errno) => .ite trivial trivial

/-- Where the configuration cannot be read, what is taken out of it is the empty section, if
anything is taken at all. This is how the section is lost. -/
theorem givesUp_takeUpdateSection {configPath : Path} :
    GivesUp (hostMachine host) (CanRead configPath) (fun r => ∀ a, r = .ok a → a = .obj [])
      (takeUpdateSection configPath) := by
  refine givesUp_fsExists canRead_of_ok nofun fun found => .ite ?_ trivial
  refine (givesUp_readUpdateSection canRead_of_ok).bind (fun savedUpdate hs => ?_)
    (fun e he => nomatch he) fun savedUpdate => ?_
  · obtain rfl := Except.ok.inj hs
    refine (ends_true (removeConfig configPath)).bind (fun _ _ => ?_) fun _ _ => nofun
    rintro a ⟨⟩
    rfl
  · refine givesUp_removeConfig.bind (fun _ => nofun) (fun e _ => nofun) fun _ => trivial

end GiveUp

/-! ### The three parts -/

section Parts

variable {β : Type} {host : Host β} {A : SysOp β → Choice β → Prop} {w v : World β}
  {configPath setupPath : Path} {user : User} {a : SetupAnswers} {savedUpdate : Json}
  {cs : List (Choice β)}

/-- The section of a configuration depends on its file only. -/
theorem updateSection_of_files (h : v.files configPath = w.files configPath) :
    v.updateSection configPath = w.updateSection configPath := by
  rw [World.updateSection, World.updateSection, h]

/-- The removal writes the configuration only, and the file is gone when it reports success. -/
theorem removeConfig_spec : cwp (hostMachine host) A (fun _ => True) (removeConfig configPath)
    (fun r v => World.Scratch [configPath] w v ∧ (r = .ok () → v.files configPath = none)) w := by
  unfold removeConfig
  refine wp_fsExists trivial ?_ fun _ => ⟨World.Scratch.refl _ _, nofun⟩
  split
  · refine wp_fsRemove trivial fun r v hv hnone _ => ?_
    split
    · exact ⟨trivial, hv, nofun⟩
    · rename_i hr
      exact ⟨trivial, hv, fun _ => hnone (by simpa using hr)⟩
  · rename_i hfile
    exact ⟨trivial, World.Scratch.refl _ _, fun _ => by simpa using hfile⟩

/-- What is taken is the section of the configuration, unless a call on it may fail. The
configuration is removed afterwards. -/
theorem takeUpdateSection_spec (hfile : w.files configPath ≠ none) :
    cwp (hostMachine host) A (fun _ => True) (takeUpdateSection configPath)
      (fun r v => World.Scratch [configPath] w v ∧ ∀ savedUpdate, r = .ok savedUpdate →
        v.files configPath = none ∧ (savedUpdate = w.updateSection configPath ∨
          CanFail A (.exists configPath) ∨ CanFail A (.read configPath))) w := by
  have remove {found : Json} (hfound : found = w.updateSection configPath ∨
      CanFail A (.exists configPath) ∨ CanFail A (.read configPath)) :
      cwp (hostMachine host) A (fun _ => True) (removeConfig configPath >>= fun _ => .ret found)
        (fun r v => World.Scratch [configPath] w v ∧ ∀ savedUpdate, r = .ok savedUpdate →
          v.files configPath = none ∧ (savedUpdate = w.updateSection configPath ∨
            CanFail A (.exists configPath) ∨ CanFail A (.read configPath))) w := by
    refine cwp_bind (cwp_mono removeConfig_spec (fun _ h => h) ?_)
    rintro r v - ⟨hv, hr⟩
    cases r with
    | error e => exact ⟨hv, nofun⟩
    | ok u =>
      refine ⟨trivial, hv, fun savedUpdate h => ?_⟩
      obtain rfl := Except.ok.inj h
      exact ⟨hr rfl, hfound⟩
  unfold takeUpdateSection
  refine wp_fsExists trivial ?_ fun _ => ⟨World.Scratch.refl _ _, nofun⟩
  rw [if_pos (Option.isSome_iff_ne_none.mpr hfile)]
  exact wp_readUpdateSection trivial (remove (.inl rfl)) fun hf => remove (.inr hf)

/-- The handler's configuration is gone, and the section is the one in it when it could be read. -/
theorem takeUpdateSection_end (hfile : w.files configPath ≠ none)
    (hend : (hostMachine host).after cs (takeUpdateSection configPath, w) = (.ret savedUpdate, v)) :
    World.Scratch [configPath] w v ∧ v.files configPath = none ∧
      ((hostMachine host).Admits (CanRead configPath) cs (takeUpdateSection configPath, w) →
        savedUpdate = w.updateSection configPath) ∧
      (¬ (hostMachine host).Admits (CanRead configPath) cs (takeUpdateSection configPath, w) →
        savedUpdate = .obj []) := by
  have hret := congrArg Prod.fst hend
  have hleft := cwp_after_ret (takeUpdateSection_spec hfile) (admits_anyAnswer _ cs _) hret
  rw [hend] at hleft
  refine ⟨hleft.1, (hleft.2 _ rfl).1, fun hread => ?_, fun hread => ?_⟩
  · have h := (cwp_after_ret (takeUpdateSection_spec hfile) hread hret).2 _ rfl
    exact h.2.resolve_right not_canFail_canRead
  · by_contra hne
    refine hread (admits_of_givesUp givesUp_takeUpdateSection (Prog.result_eq_ok.mpr hret) ?_)
    exact fun h => hne (h _ rfl)

/-- What an attempt to save leaves at the path of the setup: the credentials in a configuration that
satisfies `P`, or nothing new. -/
def SetupLeft (setupPath : Path) (P : Json → Prop) (saved : Bool) (w v : World β) : Prop :=
  if saved then
    ∃ config credentials, P config ∧ World.Replaced (tempPath setupPath w.proc.pid) setupPath
      (.json (config.withCredentials credentials)) w v
  else World.Scratch [tempPath setupPath w.proc.pid] w v

/-- The setup has saved exactly when its temporary file has been renamed onto the configuration. So
a run shows by its renames whether it has saved. -/
theorem SetupLeft.saved_iff {P : Json → Prop} {saved : Bool}
    (h : SetupLeft setupPath P saved w v) :
    saved = true ↔ World.RenamedSince w v (tempPath setupPath w.proc.pid) setupPath := by
  cases saved with
  | true =>
    obtain ⟨_, _, -, hreplaced⟩ := h
    exact iff_of_true rfl hreplaced.renamed
  | false =>
    refine iff_of_false nofun fun hrenamed => ?_
    have hmem := (World.Scratch.mem_of_renamedSince h hrenamed).2
    exact tempPath_ne setupPath w.proc.pid (List.mem_singleton.mp hmem).symm

/-- The configuration into which `save` puts the credentials: the one in the file, or an empty one
where a read of it can fail. -/
def SavesInto (A : SysOp β → Choice β → Prop) (setupPath : Path) (w : World β)
    (config : Json) : Prop :=
  config = w.config setupPath ∨
    (CanFail A (.exists setupPath) ∨ CanFail A (.read setupPath)) ∧ config = .obj []

/-- One attempt to save: it reports whether it has saved, and the file has the credentials then,
over what `save` has read. -/
theorem trySave_spec {credentials : DeviceCredentials} :
    cwp (hostMachine host) A (fun _ => True) (trySave setupPath a credentials)
      (fun r v => ∃ saved, r = .ok saved ∧ SetupLeft setupPath (SavesInto A setupPath w) saved w v)
      w := by
  unfold trySave
  refine cwp_tryCatch (cwp_bind (cwp_mono save_spec (fun _ h => h) ?_))
  rintro r v - ⟨config, hwrote, -, hconfig⟩
  cases r with
  | error e => exact ⟨trivial, false, rfl, hwrote⟩
  | ok u => exact ⟨trivial, true, rfl, config, _, hconfig, hwrote⟩

/-- Where the reads of `save` fail, and it returns, it has put the credentials into the empty
object. -/
theorem save_strays {credentials : DeviceCredentials} :
    Strays (hostMachine host) (CanRead setupPath)
      (Wrote setupPath ((.obj [] : Json).withCredentials credentials) w)
      (save setupPath credentials) w := by
  have hscratch (e : Exc) :
      Wrote setupPath ((.obj [] : Json).withCredentials credentials) w (.error e) w :=
    World.Scratch.refl _ _
  have hdirectory {B : SysOp β → Choice β → Prop} :
      cwp (hostMachine host) B (fun _ => True) (ensureConfigDirectory setupPath)
        (fun _ v => v = w) w := by
    rw [← Prog.bind_ret (ensureConfigDirectory setupPath)]
    exact wp_ensureConfigDirectory trivial ⟨trivial, rfl⟩ fun _ _ => rfl
  have hread {B : SysOp β → Choice β → Prop} : cwp (hostMachine host) B (fun _ => True)
      ((readRaw setupPath).tryCatch fun _ => return .obj []) (fun _ v => v = w) w := by
    rw [← Prog.bind_ret ((readRaw setupPath).tryCatch _)]
    exact wp_readRaw_or_empty trivial ⟨trivial, rfl⟩ fun _ => ⟨trivial, rfl⟩
  have hempty : GivesUp (hostMachine host) (CanRead setupPath) (fun r => r = .ok (.obj []))
      ((readRaw setupPath).tryCatch fun _ => return .obj []) :=
    (givesUp_readRaw canRead_of_ok).tryCatch (fun _ => nofun) (fun _ _ => rfl) fun _ => trivial
  unfold save
  split
  · trivial
  refine (((givesUp_ensureConfigDirectory canRead_of_ok).strays w).and hdirectory).bind
    (fun _ _ h => nomatch h.1) (fun e v h => ?_) hdirectory ?_
  · rw [h.2]
    exact hscratch e
  rintro - v rfl
  refine ((hempty.strays v).and hread).bind (fun config v' h => ?_) (fun e v' h => ?_) hread ?_
  · obtain ⟨hconfig, rfl⟩ := h
    obtain rfl := Except.ok.inj hconfig
    exact cwp_mono writeRaw_spec (fun _ h => h) fun _ _ _ h => h.1
  · cases h.1
  -- A read that `writeRaw` makes of the directory throws when it fails.
  rintro config v' rfl
  refine (((givesUp_writeRaw canRead_of_ok (fun _ h => by rcases h with h | h <;> cases h)
    fun _ _ h => by rcases h with h | h <;> cases h).strays v').and writeRaw_spec).mono ?_
  rintro r v ⟨⟨e, rfl⟩, hwrote, -⟩
  exact hwrote

/-- The same attempt where `save` could not read the file: what it has written is a new
configuration, with the credentials and nothing else. -/
theorem trySave_strays {credentials : DeviceCredentials} :
    Strays (hostMachine host) (CanRead setupPath)
      (fun r v => ∃ saved, r = .ok saved ∧ SetupLeft setupPath (· = .obj []) saved w v)
      (trySave setupPath a credentials) w := by
  have htry : Strays (hostMachine host) (CanRead setupPath)
      (fun (r : Except Exc Bool) v =>
        (∀ saved, r = .ok saved → saved = true ∧ SetupLeft setupPath (· = .obj []) true w v) ∧
          (∀ e, r = .error e → SetupLeft setupPath (· = .obj []) false w v))
      (do save setupPath (finalCredentials a credentials)
          return true) w := by
    refine save_strays.bind (fun u v h => ?_) (fun e v h => ?_)
      ((ends_true _).cwp (fun _ => trivial) w) fun _ _ _ => trivial
    · exact ⟨trivial, fun _ hr => ⟨(Except.ok.inj hr).symm, _, _, rfl, h⟩, nofun⟩
    · exact ⟨nofun, fun _ _ => h⟩
  refine htry.tryCatch (fun saved v h => ?_) (fun e v h => ?_)
    ((ends_true _).cwp (fun _ => trivial) w) fun _ _ _ => trivial
  · obtain ⟨rfl, hleft⟩ := h.1 _ rfl
    exact ⟨true, rfl, hleft⟩
  · exact ⟨trivial, false, rfl, h.2 _ rfl⟩

/-- With these answers the installation of the service counts as a success, and the setup with
it. -/
def SetupAnswers.installs (a : SetupAnswers) : Bool :=
  a.installService = some true ∧ a.startService.isSome

/-- The answers with which the setup reports a success once it has saved the configuration. What
can still fail then is the installation of the service. -/
def SetupAnswers.succeeds (a : SetupAnswers) : Bool :=
  match a.mainMenu with
  | some 1 => a.installs
  | some 2 => true
  | _ => a.nextStep ≠ some 1 ∨ a.installs

/-- The installation of the service is an attempt to save with a result that the user's answers
decide. Its other steps write none of the files here. -/
theorem installAsService_eq {credentials : DeviceCredentials} :
    ((installAsService setupPath a credentials).tryCatch fun _ => .ret false : SysM β Bool) =
      trySave setupPath a credentials >>= fun saved => .ret (saved && a.installs) := by
  refine (Prog.tryCatch_bind_tryCatch _ _ _ _).trans (congrArg _ (funext fun saved => ?_))
  cases saved with
  | false => rfl
  | true =>
    rcases hinstall : a.installService with _ | _ | _
    · simp [SetupAnswers.installs, hinstall, orFail]
      rfl
    · simp [SetupAnswers.installs, hinstall, orFail]
      rfl
    · rcases hstart : a.startService with _ | _
      · simp [SetupAnswers.installs, hinstall, hstart, orFail]
        rfl
      · simp [SetupAnswers.installs, hinstall, hstart, orFail]
        rfl

/-- Saving without a service is the attempt to save, with its result. -/
theorem saveConfigurationOnly_eq {credentials : DeviceCredentials} :
    ((saveConfigurationOnly setupPath a credentials).tryCatch fun _ => .ret false : SysM β Bool) =
      trySave setupPath a credentials >>= fun saved => .ret saved := by
  have h := Prog.tryCatch_bind_tryCatch (β := Bool)
    (do save setupPath (finalCredentials a credentials)
        return true : SysM β Bool) (fun _ => false) .ret fun _ => .ret false
  rw [Prog.bind_ret] at h
  exact h

/-- Once the user is authenticated, the setup saves at most once. What it asks the user then decides
its result only. -/
theorem authenticated_eq {k : DeviceCredentials → SysM β Bool} {succeeds : Bool}
    (hk : ∀ credentials, (∃ b, (k credentials).tryCatch (fun _ => .ret false) = .ret b) ∨
      (k credentials).tryCatch (fun _ => .ret false) =
        trySave setupPath a credentials >>= fun saved => .ret (saved && succeeds)) :
    (∃ b, ((do
      let credentials ← orFail a.authenticate
      if !credentials.isValid then return false
      else k credentials : SysM β Bool).tryCatch fun _ => .ret false) = .ret b) ∨
    ∃ credentials, ((do
      let credentials ← orFail a.authenticate
      if !credentials.isValid then return false
      else k credentials : SysM β Bool).tryCatch fun _ => .ret false) =
      trySave setupPath a credentials >>= fun saved => .ret (saved && succeeds) := by
  cases a.authenticate with
  | none => exact .inl ⟨false, rfl⟩
  | some credentials =>
    simp only [orFail, Prog.ret_bind]
    cases credentials.isValid with
    | false => exact .inl ⟨false, rfl⟩
    | true => exact (hk credentials).imp_right fun h => ⟨credentials, h⟩

/-- A setup either touches no file, or it is one attempt to save with the result that the user's
answers decide. All of the menus reduce to this. -/
theorem runSetup_eq (setupPath : Path) (a : SetupAnswers) :
    (∃ b, runSetup setupPath a = (.ret b : SysM β Bool)) ∨
    ∃ credentials, runSetup setupPath a =
      (trySave setupPath a credentials >>= fun saved => .ret (saved && a.succeeds) :
        SysM β Bool) := by
  -- The two ends of every menu: install the service, or save only.
  have hstart (hmenu : a.succeeds = a.installs) (credentials : DeviceCredentials) :
      ((installAsService setupPath a credentials).tryCatch fun _ => .ret false : SysM β Bool) =
        trySave setupPath a credentials >>= fun saved => .ret (saved && a.succeeds) := by
    rw [hmenu]
    exact installAsService_eq
  have hsave (hmenu : a.succeeds = true) (credentials : DeviceCredentials) :
      ((saveConfigurationOnly setupPath a credentials).tryCatch fun _ => .ret false :
        SysM β Bool) =
        trySave setupPath a credentials >>= fun saved => .ret (saved && a.succeeds) := by
    simp only [hmenu, Bool.and_true]
    exact saveConfigurationOnly_eq
  -- The menus, from the first one on. A test of the connection has one more.
  unfold runSetup showMainMenu
  split
  · exact .inl ⟨false, rfl⟩
  · rename_i hmenu
    exact authenticated_eq fun credentials =>
      .inr (hstart (by simp [SetupAnswers.succeeds, hmenu]) _)
  · rename_i hmenu
    exact authenticated_eq fun credentials =>
      .inr (hsave (by simp [SetupAnswers.succeeds, hmenu]) _)
  · rename_i hmenu
    refine authenticated_eq fun credentials => ?_
    unfold afterConnectionTest
    cases a.connected with
    | false => exact .inl ⟨false, rfl⟩
    | true =>
      rcases hnext : a.nextStep with _ | choice
      · exact .inl ⟨false, rfl⟩
      simp only [orFail, Prog.ret_bind, Bool.not_true, Bool.false_eq_true, if_false]
      split
      · exact .inr (hstart (by simp [SetupAnswers.succeeds, hmenu, hnext]) _)
      · exact .inr (hsave (by simp [SetupAnswers.succeeds, hmenu, hnext]) _)
      · exact .inl ⟨true, rfl⟩
  · exact .inl ⟨false, rfl⟩

/-- What the setup does with the file at its path follows from what the one attempt to save does. -/
theorem runSetup_spec : cwp (hostMachine host) A (fun _ => True) (runSetup setupPath a)
    (fun r v => ∃ saved, SetupLeft setupPath (SavesInto A setupPath w) saved w v ∧
      (saved = true → r = .ok a.succeeds) ∧ ∃ ok, r = .ok ok) w := by
  rcases runSetup_eq setupPath a with ⟨b, h⟩ | ⟨credentials, h⟩
  · rw [h]
    exact ⟨trivial, false, World.Scratch.refl _ _, nofun, b, rfl⟩
  · rw [h]
    refine cwp_bind (cwp_mono trySave_spec (fun _ h => h) ?_)
    rintro r v - ⟨saved, rfl, hleft⟩
    exact ⟨trivial, saved, hleft, fun hsaved => by rw [hsaved, Bool.true_and], _, rfl⟩

/-- Where `save` could not read the configuration at the setup's path, what the setup has written
there is a new one. -/
theorem runSetup_strays : Strays (hostMachine host) (CanRead setupPath)
    (fun _ v => ∃ saved, SetupLeft setupPath (· = .obj []) saved w v) (runSetup setupPath a) w := by
  rcases runSetup_eq setupPath a with ⟨b, h⟩ | ⟨credentials, h⟩
  · rw [h]
    trivial
  · rw [h]
    refine trySave_strays.bind (fun saved v h => ?_) (fun e v h => ?_)
      ((ends_true _).cwp (fun _ => trivial) w) fun _ _ _ => trivial
    · obtain ⟨saved, -, hleft⟩ := h
      exact ⟨trivial, saved, hleft⟩
    · obtain ⟨_, h, -⟩ := h
      cases h

/-- The constructor of the service installer asks whether some files are there, and no more. -/
theorem createServiceInstaller_ops {sysname : Option String} :
    AllOps (fun o : SysOp β => ∃ p, o = .exists p) (createServiceInstaller sysname) := by
  have check (p : Path) : AllOps (fun o : SysOp β => ∃ p, o = .exists p) (fsExists p) :=
    ⟨⟨p, rfl⟩, fun r => by cases r <;> trivial⟩
  have any (paths : List Path) :
      AllOps (fun o : SysOp β => ∃ p, o = .exists p) (fsExistsAny paths) := by
    induction paths with
    | nil => trivial
    | cons path paths ih => exact (check path).bind fun b => .ite (fun _ => trivial) fun _ => ih
  have both (p q : Path) : AllOps (fun o : SysOp β => ∃ p, o = .exists p) (fsExistsBoth p q) :=
    (check p).bind fun b => .ite (fun _ => check q) fun _ => trivial
  refine AllOps.bind ?_ fun i => .ite (fun _ => trivial) fun _ => trivial
  refine .ite (fun _ => trivial) fun _ => (any _).bind fun b => .ite (fun _ => trivial) fun _ => ?_
  refine (check _).bind fun b => .ite (fun _ => trivial) fun _ => ?_
  refine (both _ _).bind fun b => .ite (fun _ => trivial) fun _ => ?_
  refine (check _).bind fun b => .ite (fun _ => trivial) fun _ => ?_
  refine (both _ _).bind fun b => .ite (fun _ => trivial) fun _ => ?_
  exact (any _).bind fun b => .ite (fun _ => trivial) fun _ => trivial

/-- The constructor of the service installer only looks whether files are there. -/
theorem createServiceInstaller_keeps {sysname : Option String} :
    cwp (hostMachine host) A (fun v => v = w) (createServiceInstaller sysname) (fun _ v => v = w)
      w := by
  refine cwp_of_allOps (fun v o c ho hv => ?_) createServiceInstaller_ops rfl
  obtain ⟨p, rfl⟩ := ho
  exact hv

/-- The service installer throws when it cannot look at the files that tell the init system. -/
theorem givesUp_createServiceInstaller {sysname : Option String}
    (hA : ∀ o c, c.error = none → A o c) :
    GivesUp (hostMachine host) A Thrown (createServiceInstaller sysname) := by
  have check (p : Path) : GivesUp (hostMachine host) A Thrown (fsExists p) := by
    rw [← Prog.bind_ret (fsExists p)]
    exact givesUp_fsExists hA ⟨_, rfl⟩ fun _ => trivial
  have next {γ : Type} {p : SysM β Bool} {k : Bool → SysM β γ}
      (hp : GivesUp (hostMachine host) A Thrown p)
      (hk : ∀ b, GivesUp (hostMachine host) A Thrown (k b)) :
      GivesUp (hostMachine host) A Thrown (p >>= k) :=
    hp.bind (fun _ => nofun) (fun e _ => ⟨e, rfl⟩) hk
  have any (paths : List Path) : GivesUp (hostMachine host) A Thrown (fsExistsAny paths) := by
    induction paths with
    | nil => trivial
    | cons path paths ih => exact next (check path) fun _ => .ite trivial ih
  have both (p q : Path) : GivesUp (hostMachine host) A Thrown (fsExistsBoth p q) :=
    next (check p) fun _ => .ite (check q) trivial
  refine GivesUp.bind (F := Thrown) ?_ (fun _ => nofun) (fun e _ => ⟨e, rfl⟩) fun i =>
    .ite trivial trivial
  -- The files in the order in which they are looked for.
  refine .ite trivial (next (any _) fun _ => .ite trivial ?_)
  refine next (check _) fun _ => .ite trivial (next (both _ _) fun _ => .ite trivial ?_)
  refine next (check _) fun _ => .ite trivial (next (both _ _) fun _ => .ite trivial ?_)
  exact next (any _) fun _ => .ite trivial trivial

/-- The setup throws only before it has touched a file. -/
theorem interactiveSetup_spec {sysname : Option String}
    (hdefault : defaultConfigPath user = .ok setupPath) :
    cwp (hostMachine host) A (fun _ => True) (interactiveSetup a user sysname)
      (fun r v => ∃ saved, SetupLeft setupPath (SavesInto A setupPath w) saved w v ∧
        (saved = true → r = .ok a.succeeds) ∧ ∀ e, r = .error e → v = w) w := by
  unfold interactiveSetup
  rw [hdefault]
  refine cwp_bind (cwp_mono createServiceInstaller_keeps (fun _ _ => trivial) ?_)
  rintro r v - rfl
  cases r with
  | error e => exact ⟨false, World.Scratch.refl _ _, nofun, fun _ _ => rfl⟩
  | ok u =>
    refine cwp_mono runSetup_spec (fun _ h => h) ?_
    rintro r v - ⟨saved, hleft, hsucceeds, ok, rfl⟩
    exact ⟨saved, hleft, hsucceeds, nofun⟩

/-- Where `save` could not read the configuration at the setup's path, what it has written there is
a new one. -/
theorem interactiveSetup_strays {sysname : Option String}
    (hdefault : defaultConfigPath user = .ok setupPath) :
    Strays (hostMachine host) (CanRead setupPath)
      (fun r v => ∀ ok, r = .ok ok → ∃ saved, SetupLeft setupPath (· = .obj []) saved w v)
      (interactiveSetup a user sysname) w := by
  have hkeeps : cwp (hostMachine host) (CanRead setupPath) (fun _ => True)
      (createServiceInstaller sysname) (fun _ v => v = w) w :=
    cwp_mono createServiceInstaller_keeps (fun _ _ => trivial) fun _ _ _ h => h
  unfold interactiveSetup
  rw [hdefault]
  refine ((givesUp_createServiceInstaller canRead_of_ok).strays w).bind (fun _ _ h => nomatch h)
    (fun _ _ _ => nofun) hkeeps ?_
  rintro - v rfl
  exact runSetup_strays.mono fun r v h _ _ => h

/-- Where the section can be restored, the store works: it is read and written with the same
calls. -/
theorem storeWorks_restoreWorks : StoreWorks (RestoreWorks (β := β)) configPath := by
  have works {o : SysOp β} (hpid : o ≠ .getpid) (hdir : ∀ d, o ≠ .fsyncDir d) :
      ¬ CanFail RestoreWorks o := by
    rintro ⟨c, e, hc, he⟩
    rw [hc hpid hdir] at he
    cases he
  refine ⟨fun o ho hdir => works (fun h => ?_) hdir, works (by simp) (by simp),
    works (by simp) (by simp)⟩
  rw [h] at ho
  cases ho

/-- Where every call works that the restored section needs, it is in the file. -/
theorem restoreUpdateSection_works {kvs : List (String × Json)}
    (hfile : (w.files configPath).bind Content.parse = some (.obj kvs))
    (hne : savedUpdate.isEmpty = false) :
    cwp (hostMachine host) RestoreWorks (fun _ => True)
      (restoreUpdateSection configPath true savedUpdate)
      (fun _ v => v.updateSection configPath = savedUpdate) w := by
  have hworks : StoreWorks (RestoreWorks (β := β)) configPath := storeWorks_restoreWorks
  unfold restoreUpdateSection
  rw [hne]
  refine wp_fsExists trivial ?_ fun hf => absurd hf (hworks.exists _)
  obtain ⟨content, hcontent, -⟩ := Option.bind_eq_some_iff.mp hfile
  rw [hcontent]
  refine cwp_tryCatch (cwp_mono writeUpdateSection_spec (fun _ h => h) ?_)
  rintro r v - ⟨hwrote, hok⟩
  obtain rfl := hok hworks kvs hfile
  have hobj := w.isObject_config configPath
  show v.updateSection configPath = savedUpdate
  rw [World.updateSection_eq, World.config_of_replaced hwrote (Json.isObject_set _ _ hobj),
    Json.find_set_self _ _ hobj]
  rfl

/-- A check that works goes on with whether the file is there. -/
theorem after_fsExists_ok {α : Type} {k : Bool → SysM β α} {p : Path} {c : Choice β}
    (he : c.error = none) : (hostMachine host).after (c :: cs) (fsExists p >>= k, w) =
      (hostMachine host).after cs (k (w.files p).isSome, w) := by
  have hexec : exec host w (.exists p) c = (some (w.files p).isSome, w) := by
    simp only [exec, he]
    rfl
  show (hostMachine host).after cs (orThrow (exec host w (.exists p) c).1 >>= k,
    (exec host w (.exists p) c).2) = _
  rw [hexec]
  rfl

/-- A list of answers whose first one lets a check work is admitted when the rest is, by the program
behind the check. -/
theorem admits_fsExists_ok {α : Type} {k : Bool → SysM β α} {p : Path} {c : Choice β}
    (he : c.error = none) (hc : A (.exists p) c)
    (hcs : (hostMachine host).Admits A cs (k (w.files p).isSome, w)) :
    (hostMachine host).Admits A (c :: cs) (fsExists p >>= k, w) := by
  have hexec : exec host w (.exists p) c = (some (w.files p).isSome, w) := by
    simp only [exec, he]
    rfl
  refine ⟨hc, ?_⟩
  show (hostMachine host).Admits A cs (orThrow (exec host w (.exists p) c).1 >>= k,
    (exec host w (.exists p) c).2)
  rw [hexec]
  exact hcs

/-- A check that throws ends the program with an exception of the file system. -/
theorem after_fsExists_fail {α : Type} {k : Bool → SysM β α} {p : Path} {c : Choice β} {e : Errno}
    (he : c.error = some e) : (hostMachine host).after (c :: cs) (fsExists p >>= k, w) =
      (.throw .filesystemError, w) := by
  have hexec : exec host w (.exists p) c = (none, w) := by
    simp only [exec, he]
    rfl
  show (hostMachine host).after cs (orThrow (exec host w (.exists p) c).1 >>= k,
    (exec host w (.exists p) c).2) = _
  rw [hexec]
  exact Machine.after_of_done _ _ (p := .throw _) trivial w

/-- Where one of these calls fails, the file stays as it was. -/
theorem restoreUpdateSection_fails {p : SysM β Unit} (hfile : w.files configPath ≠ none)
    (hne : savedUpdate.isEmpty = false)
    (hend : (hostMachine host).after cs (restoreUpdateSection configPath true savedUpdate, w) =
      (p, v)) (hdone : p.Done)
    (hfails : ¬ (hostMachine host).Admits RestoreWorks cs
      (restoreUpdateSection configPath true savedUpdate, w)) :
    v.files configPath = w.files configPath := by
  have hsome : (w.files configPath).isSome = true := Option.isSome_iff_ne_none.mpr hfile
  have hprog : (restoreUpdateSection configPath true savedUpdate : SysM β Unit) =
      fsExists configPath >>= fun found => if found then
        (writeUpdateSection configPath savedUpdate).tryCatch fun _ => return () else return () := by
    rw [restoreUpdateSection, hne]
    rfl
  rw [hprog] at hend hfails
  cases cs with
  | nil => exact absurd trivial hfails
  | cons c cs =>
    cases he : c.error with
    | some e =>
      rw [after_fsExists_fail he] at hend
      cases hend
      rfl
    | none =>
      rw [after_fsExists_ok he, hsome, if_pos rfl] at hend
      have hfails' : ¬ (hostMachine host).Admits RestoreWorks cs
          (writeUpdateSection configPath savedUpdate, w) := fun h =>
        hfails (admits_fsExists_ok he (fun _ _ => he)
          (by rw [hsome]; exact admits_tryCatch_ret.mpr h))
      have hdone' : ((hostMachine host).after cs ((writeUpdateSection configPath
          savedUpdate).tryCatch fun _ => return (), w)).1.Done := by rw [hend]; exact hdone
      -- The file is there, so the section is written, and an exception of it is dropped.
      rcases after_tryCatch_done hdone' with
        ⟨u, v', hwrite, -⟩ | ⟨ds, ds', e, v', rfl, hwrite, hrest⟩
      · -- A write that has returned needed every call to work.
        refine absurd (admits_of_givesUp givesUp_writeUpdateSection
          (Prog.result_eq_ok.mpr (congrArg Prod.fst hwrite)) ?_) hfails'
        rintro ⟨e, he⟩
        cases he
      · have hwrote := (cwp_after_throw writeUpdateSection_spec (admits_anyAnswer _ ds _)
          (congrArg Prod.fst hwrite)).1
        rw [hwrite] at hwrote
        rw [hrest] at hend
        cases (Machine.after_of_done _ ds' (p := .ret ()) trivial v').symm.trans hend
        exact World.files_of_wrote hwrote rfl

/-- The restored section goes through a temporary file, and nowhere without a configuration. -/
theorem restoreUpdateSection_spec {ok : Bool} :
    cwp (hostMachine host) A (fun _ => True) (restoreUpdateSection configPath ok savedUpdate)
      (fun _ v => World.Scratch [tempPath configPath w.proc.pid, configPath] w v ∧
        (w.files configPath = none → v = w)) w := by
  have stay : World.Scratch [tempPath configPath w.proc.pid, configPath] w w ∧
      (w.files configPath = none → w = w) := ⟨World.Scratch.refl _ _, fun _ => rfl⟩
  unfold restoreUpdateSection
  split
  · refine wp_fsExists trivial ?_ fun _ => stay
    split
    · rename_i hfile
      refine cwp_tryCatch (cwp_mono writeUpdateSection_spec (fun _ h => h) ?_)
      rintro r v - ⟨hwrote, -⟩
      have hnone : w.files configPath = none → v = w := fun h => by simp [h] at hfile
      cases r with
      | ok u => exact ⟨World.Replaced.scratch hwrote, hnone⟩
      | error e => exact ⟨trivial, World.Scratch.mono hwrote (by simp), hnone⟩
    · exact ⟨trivial, stay⟩
  · exact ⟨trivial, stay⟩

end Parts

/-! ### The run -/

/-- A temporary file has a longer name than the file it stands for, so no path is a temporary file
of itself. -/
theorem tempPath_length (path : Path) (pid : Nat) :
    path.length < (tempPath path pid).length := by
  rw [tempPath, String.length_append, String.length_append]
  have h : ".tmp.".length = 5 := rfl
  omega

section Run

variable {β : Type} (host : Host β) (configPath : Path) (user : User) (sysname : Option String)
  (a : SetupAnswers) (cs : List (Choice β)) (w : World β)

/-- A run of `handleReconfigure` in which the setup comes to its end. -/
structure ReconfigureRun where
  terminal : Choice β
  taking : List (Choice β)
  setting : List (Choice β)
  restoring : List (Choice β)
  savedUpdate : Json
  ok : Bool
  taken : World β
  setUp : World β
  split : cs = terminal :: (taking ++ (setting ++ restoring))
  take : (hostMachine host).after taking (takeUpdateSection configPath, w) =
    (.ret savedUpdate, taken)
  setup : (hostMachine host).after setting (interactiveSetup a user sysname, taken) =
    (.ret ok, setUp)
  restore : (hostMachine host).after cs (handleReconfigure configPath user sysname a, w) =
    (hostMachine host).after restoring (restoreUpdateSection configPath ok savedUpdate >>=
      fun _ => .ret (if ok then 0 else 1), setUp)

namespace ReconfigureRun

variable {host configPath user sysname a cs w}

/-- The setup has written a configuration: the rename at the end of an atomic write to its path has
been made. -/
def Wrote (s : ReconfigureRun host configPath user sysname a cs w) (setupPath : Path) : Prop :=
  World.RenamedSince s.taken s.setUp (tempPath setupPath w.proc.pid) setupPath

/-- `save` is not kept from reading the configuration at the setup's path. -/
def SaveReads (s : ReconfigureRun host configPath user sysname a cs w) (setupPath : Path) : Prop :=
  (hostMachine host).Admits (CanRead setupPath) s.setting (interactiveSetup a user sysname, s.taken)

/-- What the section needs. Where the handler's configuration is the one the setup writes, the
section can be read, the user's answers let the setup succeed, and every call works that writes the
section back. An empty object comes back by itself. Where the setup writes another configuration,
that had an equal section before the run, or none that `save` could read and the handler's section
is empty. -/
def Keeps (s : ReconfigureRun host configPath user sysname a cs w) (setupPath : Path) : Prop :=
  if configPath = setupPath then
    w.updateSection configPath = .obj [] ∨
      (hostMachine host).Admits (CanRead configPath) s.taking (takeUpdateSection configPath, w) ∧
        a.succeeds = true ∧ (w.updateSection configPath).isEmpty = false ∧
        (hostMachine host).Admits RestoreWorks s.restoring
          (restoreUpdateSection configPath true (w.updateSection configPath), s.setUp)
  else
    (s.SaveReads setupPath → w.updateSection setupPath = w.updateSection configPath) ∧
      (¬ s.SaveReads setupPath → w.updateSection configPath = .obj [])

variable {s : ReconfigureRun host configPath user sysname a cs w} {setupPath : Path}
  {p : SysM β Nat} {w' : World β}

/-- The end of the run is the end of the restoring part. -/
theorem restored (s : ReconfigureRun host configPath user sysname a cs w)
    (hend : (hostMachine host).after cs (handleReconfigure configPath user sysname a, w) = (p, w'))
    (hdone : p.Done) : ∃ q, (hostMachine host).after s.restoring
      (restoreUpdateSection configPath s.ok s.savedUpdate, s.setUp) = (q, w') ∧ q.Done := by
  have hrest := s.restore.symm.trans hend
  have hdone' : ((hostMachine host).after s.restoring (restoreUpdateSection configPath s.ok
      s.savedUpdate >>= fun _ => .ret (if s.ok then 0 else 1), s.setUp)).1.Done := by
    rw [hrest]
    exact hdone
  rcases after_bind_done hdone' with ⟨e, v, hthrow, hwhole⟩ | ⟨ds, ds', u, v, hsplit, hret, hwhole⟩
  · cases hwhole.symm.trans hrest
    exact ⟨_, hthrow, trivial⟩
  · have hwhole' := hwhole.symm.trans hrest
    cases (Machine.after_of_done _ ds' (p := .ret _) trivial v).symm.trans hwhole'
    refine ⟨.ret u, ?_, trivial⟩
    rw [hsplit, Machine.after_append, hret]
    exact Machine.after_of_done _ ds' (p := .ret u) trivial _

/-- The setup's file when it has written one, and the handler's configuration before it. -/
theorem wrote_cases (s : ReconfigureRun host configPath user sysname a cs w)
    (hfile : w.files configPath ≠ none) (hdefault : defaultConfigPath user = .ok setupPath) :
    s.taken.files configPath = none ∧ World.Scratch [configPath] w s.taken ∧
      (¬ s.Wrote setupPath ∧
          World.Scratch [tempPath setupPath w.proc.pid] s.taken s.setUp ∨
        s.Wrote setupPath ∧ s.ok = a.succeeds ∧ ∃ config credentials,
          (s.SaveReads setupPath → config = s.taken.config setupPath) ∧
          (¬ s.SaveReads setupPath → config = .obj []) ∧
          World.Replaced (tempPath setupPath w.proc.pid) setupPath
            (.json (config.withCredentials credentials)) s.taken s.setUp) := by
  -- The handler takes the section out of its configuration and removes the file.
  obtain ⟨hscratch, hnone, -⟩ := takeUpdateSection_end hfile s.take
  refine ⟨hnone, hscratch, ?_⟩
  have hret := congrArg Prod.fst s.setup
  -- Whether the setup has written is read off its last rename.
  obtain ⟨saved, hleft, hsucceeds, -⟩ :=
    cwp_after_ret (interactiveSetup_spec hdefault) (admits_anyAnswer _ s.setting _) hret
  rw [s.setup] at hleft
  have hsaved := hleft.saved_iff
  rw [hscratch.pid] at hsaved
  cases saved with
  | false =>
    rw [SetupLeft, hscratch.pid] at hleft
    exact .inl ⟨fun hwrote => Bool.false_ne_true (hsaved.mpr hwrote), hleft⟩
  | true =>
    refine .inr ⟨hsaved.mp rfl, Except.ok.inj (hsucceeds rfl), ?_⟩
    -- `save` keeps what it reads. When its reads fail it begins with an empty object.
    by_cases hreads : s.SaveReads setupPath
    · obtain ⟨saved, hleft, -⟩ := cwp_after_ret (interactiveSetup_spec hdefault) hreads hret
      rw [s.setup] at hleft
      obtain rfl := hleft.saved_iff.mpr (by rw [hscratch.pid]; exact hsaved.mp rfl)
      obtain ⟨config, credentials, hconfig, hreplaced⟩ := hleft
      rw [hscratch.pid] at hreplaced
      have hfound := hconfig.resolve_right fun h => not_canFail_canRead h.1
      exact ⟨config, credentials, fun _ => hfound, fun h => absurd hreads h, hreplaced⟩
    · obtain ⟨saved, hleft⟩ := result_of_strays (interactiveSetup_strays hdefault) hreads
        (Prog.result_eq_ok.mpr hret) _ rfl
      rw [s.setup] at hleft
      obtain rfl := hleft.saved_iff.mpr (by rw [hscratch.pid]; exact hsaved.mp rfl)
      obtain ⟨config, credentials, hconfig, hreplaced⟩ := hleft
      rw [hscratch.pid] at hreplaced
      exact ⟨config, credentials, fun h => absurd h hreads, fun _ => hconfig, hreplaced⟩

/-- The setup writes the configuration at its own path and the temporary file of it, and no other
configuration. -/
theorem setUp_scratch (s : ReconfigureRun host configPath user sysname a cs w)
    (hfile : w.files configPath ≠ none) (hdefault : defaultConfigPath user = .ok setupPath) :
    World.Scratch [tempPath setupPath w.proc.pid, setupPath] s.taken s.setUp := by
  rcases (s.wrote_cases hfile hdefault).2.2 with ⟨-, hscratch⟩ | ⟨-, -, _, _, -, -, hreplaced⟩
  · exact hscratch.mono (by simp)
  · exact hreplaced.scratch

/-- The section of the setup's configuration is the one `save` has found there. -/
theorem setUp_section (s : ReconfigureRun host configPath user sysname a cs w)
    (hfile : w.files configPath ≠ none) (hdefault : defaultConfigPath user = .ok setupPath)
    (hwrote : s.Wrote setupPath) (hpath : configPath ≠ setupPath) :
    (s.SaveReads setupPath → s.setUp.updateSection setupPath = w.updateSection setupPath) ∧
      (¬ s.SaveReads setupPath → s.setUp.updateSection setupPath = .obj []) := by
  obtain ⟨-, hscratch, hcases⟩ := s.wrote_cases hfile hdefault
  obtain ⟨-, -, config, credentials, hfound, hempty, hreplaced⟩ :=
    hcases.resolve_left fun h => h.1 hwrote
  -- The handler has worked on its own configuration, which is another file.
  have hsame : s.taken.files setupPath = w.files setupPath :=
    hscratch.files (by simpa using hpath.symm)
  constructor
  · intro hreads
    obtain rfl := hfound hreads
    have hobj := s.taken.isObject_config setupPath
    -- The credentials are written under other keys.
    have hother : ((s.taken.config setupPath).withCredentials credentials).find "update" =
        (s.taken.config setupPath).find "update" := by
      rw [Json.withCredentials, Json.find_set_ne _ _ (by decide), Json.find_set_ne _ _ (by decide),
        Json.find_set_ne _ _ (by decide), Json.find_set_ne _ _ (by decide)]
    rw [World.updateSection_eq, World.config_of_replaced hreplaced
      (isObject_withCredentials _ hobj),
      hother, ← World.updateSection_eq, updateSection_of_files hsame]
  · intro hreads
    obtain rfl := hempty hreads
    rw [World.updateSection_eq, World.config_of_replaced hreplaced rfl]
    rfl

/-- What restoring the section touches: the configuration file and its temporary file, and nothing
where the setup has left no file. -/
theorem restore_scratch (s : ReconfigureRun host configPath user sysname a cs w)
    (hfile : w.files configPath ≠ none) (hdefault : defaultConfigPath user = .ok setupPath)
    (hend : (hostMachine host).after cs (handleReconfigure configPath user sysname a, w) = (p, w'))
    (hdone : p.Done) :
    World.Scratch [tempPath configPath w.proc.pid, configPath] s.setUp w' ∧
      (s.setUp.files configPath = none → w' = s.setUp) := by
  obtain ⟨q, hq, hqdone⟩ := s.restored hend hdone
  have hpid : s.setUp.proc.pid = w.proc.pid :=
    (s.setUp_scratch hfile hdefault).pid.trans (s.wrote_cases hfile hdefault).2.1.pid
  obtain ⟨r, hr⟩ := Prog.exists_result hqdone
  have hspec := ensures_of_cwp restoreUpdateSection_spec s.restoring (admits_anyAnswer _ _ _) r
    ((congrArg (fun x => x.1.result) hq).trans hr)
  rwa [hq, hpid] at hspec

/-- Restoring leaves another configuration alone, and renames nothing onto it. -/
theorem restore_other (s : ReconfigureRun host configPath user sysname a cs w)
    (hfile : w.files configPath ≠ none) (hdefault : defaultConfigPath user = .ok setupPath)
    (hend : (hostMachine host).after cs (handleReconfigure configPath user sysname a, w) = (p, w'))
    (hdone : p.Done) (hne : configPath ≠ setupPath) :
    w'.files setupPath = s.setUp.files setupPath ∧
      ¬ World.RenamedSince s.setUp w' (tempPath setupPath w.proc.pid) setupPath := by
  obtain ⟨hscratch, hnone⟩ := s.restore_scratch hfile hdefault hend hdone
  by_cases htemp : setupPath = tempPath configPath w.proc.pid
  · -- The setup's file is the temporary file of the handler's, which is not there any more.
    have hlt := tempPath_length configPath w.proc.pid
    have hlt' := tempPath_length setupPath w.proc.pid
    have hother : configPath ∉ [tempPath setupPath w.proc.pid, setupPath] := by
      intro hmem
      rcases List.mem_cons.mp hmem with heq | hmem
      · rw [← heq] at hlt'
        rw [← htemp] at hlt
        omega
      · exact hne (List.mem_singleton.mp hmem)
    have habsent : s.setUp.files configPath = none :=
      ((s.setUp_scratch hfile hdefault).files hother).trans (s.wrote_cases hfile hdefault).1
    rw [hnone habsent]
    exact ⟨rfl, World.not_renamedSince_self⟩
  · have hother : setupPath ∉ [tempPath configPath w.proc.pid, configPath] := by
      simp [htemp, Ne.symm hne]
    exact ⟨hscratch.files hother, fun h => hother (hscratch.mem_of_renamedSince h).2⟩

/-- In a run in which the setup has written a configuration, its section is the one from before
exactly when it is kept. -/
theorem kept_iff (s : ReconfigureRun host configPath user sysname a cs w)
    (hfile : w.files configPath ≠ none) (hdefault : defaultConfigPath user = .ok setupPath)
    (hend : (hostMachine host).after cs (handleReconfigure configPath user sysname a, w) = (p, w'))
    (hdone : p.Done) (hwrote : s.Wrote setupPath) :
    w'.updateSection setupPath = w.updateSection configPath ↔ s.Keeps setupPath := by
  by_cases hpath : configPath = setupPath
  case neg =>
    obtain ⟨hfound, hempty⟩ := s.setUp_section hfile hdefault hwrote hpath
    rw [Keeps, if_neg hpath, updateSection_of_files (s.restore_other hfile hdefault hend hdone
      hpath).1]
    by_cases hreads : s.SaveReads setupPath
    · rw [hfound hreads]
      exact ⟨fun h => ⟨fun _ => h, fun h => absurd hreads h⟩, fun h => h.1 hreads⟩
    · rw [hempty hreads]
      exact ⟨fun h => ⟨fun h => absurd h hreads, fun _ => h.symm⟩, fun h => (h.2 hreads).symm⟩
  subst hpath
  rw [Keeps, if_pos rfl]
  obtain ⟨hnone, -, hcases⟩ := s.wrote_cases hfile hdefault
  obtain ⟨-, hsucceeds, config, credentials, hfound, hunfound, hreplaced⟩ :=
    hcases.resolve_left fun h => h.1 hwrote
  have hempty : s.taken.config configPath = .obj [] := by
    rw [World.config, hnone]
  obtain rfl : config = .obj [] := by
    by_cases hreads : s.SaveReads configPath
    · exact (hfound hreads).trans hempty
    · exact hunfound hreads
  -- The setup has found no configuration, so the new one has no section yet.
  have hfresh : s.setUp.updateSection configPath = .obj [] := by
    rw [World.updateSection_eq, World.config_of_replaced hreplaced rfl]
    rfl
  have hparse : ∃ kvs, (s.setUp.files configPath).bind Content.parse = some (.obj kvs) := by
    rw [hreplaced.files_target]
    exact ⟨_, rfl⟩
  have hthere : s.setUp.files configPath ≠ none := by
    rw [hreplaced.files_target]
    exact Option.some_ne_none _
  obtain ⟨kvs, hkvs⟩ := hparse
  obtain ⟨-, -, hread, hunread⟩ := takeUpdateSection_end hfile s.take
  obtain ⟨q, hq, hqdone⟩ := s.restored hend hdone
  rw [hsucceeds] at hq
  -- Where nothing is restored, the section is the empty object.
  have hskip (h : a.succeeds = false ∨ s.savedUpdate.isEmpty = true) :
      w'.updateSection configPath = .obj [] := by
    have hstay : restoreUpdateSection configPath a.succeeds s.savedUpdate =
        (.ret () : SysM β Unit) := by
      unfold restoreUpdateSection
      rcases h with h | h
      · rw [h]
        rfl
      · rw [h, Bool.not_true, Bool.and_false]
        rfl
    rw [hstay] at hq
    cases (Machine.after_of_done _ s.restoring (p := .ret ()) trivial s.setUp).symm.trans hq
    exact hfresh
  by_cases hsection : w.updateSection configPath = .obj []
  · refine ⟨fun _ => .inl hsection, fun _ => ?_⟩
    have htaken : s.savedUpdate = .obj [] := by
      by_cases h : (hostMachine host).Admits (CanRead configPath) s.taking
          (takeUpdateSection configPath, w)
      · exact (hread h).trans hsection
      · exact hunread h
    rw [hskip (.inr (by rw [htaken]; rfl)), hsection]
  have hlost (h : w'.updateSection configPath = .obj []) :
      w'.updateSection configPath ≠ w.updateSection configPath := by
    rw [h]
    exact Ne.symm hsection
  constructor
  · intro hkept
    refine .inr ?_
    have hadmits : (hostMachine host).Admits (CanRead configPath) s.taking
        (takeUpdateSection configPath, w) := by
      by_contra h
      exact hlost (hskip (.inr (by rw [hunread h]; rfl))) hkept
    have hok : a.succeeds = true := by
      by_contra h
      exact hlost (hskip (.inl (by simpa using h))) hkept
    have hnonempty : (w.updateSection configPath).isEmpty = false := by
      by_contra h
      exact hlost (hskip (.inr (by rw [hread hadmits]; simpa using h))) hkept
    refine ⟨hadmits, hok, hnonempty, ?_⟩
    by_contra hfails
    rw [hok, hread hadmits] at hq
    have hsame := restoreUpdateSection_fails hthere hnonempty hq hqdone hfails
    exact hlost ((updateSection_of_files hsame).trans hfresh) hkept
  · rintro (h | ⟨hadmits, hok, hnonempty, hworks⟩)
    · exact absurd h hsection
    · rw [hok, hread hadmits] at hq
      obtain ⟨r, hr⟩ := Prog.exists_result hqdone
      have hend := ensures_of_cwp (restoreUpdateSection_works hkvs hnonempty) s.restoring hworks r
        ((congrArg (fun x => x.1.result) hq).trans hr)
      rwa [hq] at hend

/-- A complete run that renames a file onto the setup's path is one in which the setup has written
a configuration. -/
theorem exists_of_renamed (hfile : w.files configPath ≠ none)
    (hdefault : defaultConfigPath user = .ok setupPath)
    (hend : (hostMachine host).after cs (handleReconfigure configPath user sysname a, w) = (p, w'))
    (hdone : p.Done)
    (hrenamed : World.RenamedSince w w' (tempPath setupPath w.proc.pid) setupPath) :
    ∃ s : ReconfigureRun host configPath user sysname a cs w, s.Wrote setupPath := by
  have hne := tempPath_ne setupPath w.proc.pid
  have untouched {v : World β} (h : World.Scratch [configPath] w v) :
      ¬ World.RenamedSince w v (tempPath setupPath w.proc.pid) setupPath := fun h' => by
    obtain ⟨htemp, hsetup⟩ := h.mem_of_renamedSince h'
    exact hne ((List.mem_singleton.mp htemp).trans (List.mem_singleton.mp hsetup).symm)
  cases cs with
  | nil =>
    cases hend
    exact hdone.elim
  | cons c cs =>
    have hstep : (hostMachine host).after (c :: cs)
          (handleReconfigure configPath user sysname a, w) =
        (hostMachine host).after cs (if !c.error.isNone then .ret 1 else
          takeUpdateSection configPath >>= fun savedUpdate =>
            interactiveSetup a user sysname >>= fun ok =>
              restoreUpdateSection configPath ok savedUpdate >>= fun _ =>
                .ret (if ok then 0 else 1), w) := rfl
    rw [hstep] at hend
    cases he : c.error with
    | some e =>
      simp only [he, Option.isNone_some, Bool.not_false, if_true] at hend
      cases (Machine.after_of_done _ cs (p := .ret 1) trivial w).symm.trans hend
      exact absurd hrenamed World.not_renamedSince_self
    | none =>
      simp only [he, Option.isNone_none, Bool.not_true, Bool.false_eq_true, if_false] at hend hstep
      have hdone' := (congrArg (fun x => x.1.Done) hend).mpr hdone
      rcases after_bind_done hdone' with ⟨e, v, htake, hwhole⟩ |
        ⟨taking, rest, savedUpdate, taken, rfl, htake, hwhole⟩
      · cases hwhole.symm.trans hend
        have hspec := cwp_after_throw (takeUpdateSection_spec hfile) (admits_anyAnswer _ cs _)
          (congrArg Prod.fst htake)
        rw [htake] at hspec
        exact absurd hrenamed (untouched hspec.1)
      obtain ⟨hscratch, -⟩ := takeUpdateSection_end hfile htake
      rw [hwhole] at hdone'
      rcases after_bind_done hdone' with ⟨e, v, hsetup, hwhole'⟩ |
        ⟨setting, restoring, ok, setUp, rfl, hsetup, hwhole'⟩
      · cases hwhole'.symm.trans (hwhole.symm.trans hend)
        obtain ⟨-, -, -, hstay⟩ := cwp_after_throw (interactiveSetup_spec hdefault)
          (admits_anyAnswer _ rest _) (congrArg Prod.fst hsetup)
        have hspec := hstay e rfl
        rw [hsetup] at hspec
        subst hspec
        exact absurd hrenamed (untouched hscratch)
      let s : ReconfigureRun host configPath user sysname a
          (c :: (taking ++ (setting ++ restoring))) w :=
        ⟨c, taking, setting, restoring, savedUpdate, ok, taken, setUp, rfl, htake, hsetup,
          hstep.trans (hwhole.trans hwhole')⟩
      refine ⟨s, ?_⟩
      have hend' := hstep.trans hend
      have hrest := s.restore_scratch hfile hdefault hend' hdone
      have hset := s.setUp_scratch hfile hdefault
      have hafter := (hset.mono (List.subset_append_left _ _)).trans
        (hrest.1.mono (List.subset_append_right _ _))
      rcases (hscratch.renamedSince_trans hafter).mp hrenamed with h | h
      · exact absurd h (untouched hscratch)
      rcases (hset.renamedSince_trans hrest.1).mp h with h | h
      · exact h
      -- A rename of the restoring part needs a configuration of the setup.
      by_contra hwrote
      by_cases hpath : configPath = setupPath
      · subst hpath
        obtain ⟨hnone, -, hcases⟩ := s.wrote_cases hfile hdefault
        have hsame := (hcases.resolve_right fun hc => hwrote hc.1).2.files
          (by simpa using hne.symm : configPath ∉ [tempPath configPath w.proc.pid])
        rw [hrest.2 (hsame.trans hnone)] at h
        exact World.not_renamedSince_self h
      · exact (s.restore_other hfile hdefault hend' hdone hpath).2 h

end ReconfigureRun

variable {host configPath user sysname a cs w}

/-- Reconfiguring keeps the update policy exactly when the section is kept: in a complete run of
`handleReconfigure` over an existing configuration, a configuration that the setup has written has
the `update` section from before if and only if the run meets `Keeps`. -/
theorem sectionKept_iff {setupPath : Path} {p : SysM β Nat} {w' : World β}
    (hfile : w.files configPath ≠ none) (hdefault : defaultConfigPath user = .ok setupPath)
    (hend : (hostMachine host).after cs (handleReconfigure configPath user sysname a, w) = (p, w'))
    (hdone : p.Done) :
    (World.RenamedSince w w' (tempPath setupPath w.proc.pid) setupPath →
        w'.updateSection setupPath = w.updateSection configPath) ↔
      ∀ s : ReconfigureRun host configPath user sysname a cs w,
        s.Wrote setupPath → s.Keeps setupPath := by
  constructor
  · intro hkept s hwrote
    obtain ⟨-, hscratch, -⟩ := s.wrote_cases hfile hdefault
    have hset := s.setUp_scratch hfile hdefault
    have hrest := (s.restore_scratch hfile hdefault hend hdone).1
    have hafter := (hset.mono (List.subset_append_left _ _)).trans
      (hrest.mono (List.subset_append_right _ _))
    have hrenamed := (hscratch.renamedSince_trans hafter).mpr
      (.inr ((hset.renamedSince_trans hrest).mpr (.inl hwrote)))
    exact (s.kept_iff hfile hdefault hend hdone hwrote).mp (hkept hrenamed)
  · intro hkeeps hrenamed
    obtain ⟨s, hwrote⟩ := ReconfigureRun.exists_of_renamed hfile hdefault hend hdone hrenamed
    exact (s.kept_iff hfile hdefault hend hdone hwrote).mpr (hkeeps s hwrote)

end Run

/-! ### Sample runs -/

/-- The user of the sample runs is root, who has the configuration of the system. -/
def sampleSetupUser : User := { euid := 0, home := none, pwDir := none }

/-- The user chooses to install the service, and the installation works or fails. -/
def sampleInstall (installs : Bool) : SetupAnswers where
  mainMenu := some 1
  authenticate := some sampleOptOutDevice
  noVerify := false
  connected := false
  nextStep := none
  installService := some installs
  startService := some true

/-- `reconfigure` on the device with the opt-out, where every system call works. -/
def sampleReconfigure (installs : Bool) : SysM Nat Nat × World Nat :=
  (hostMachine sampleStoreHost).after (List.replicate 40 .ok)
    (handleReconfigure SYSTEM_CONFIG_PATH sampleSetupUser (some "Darwin") (sampleInstall installs),
      sampleManaged)

/-- The section survives a run in which the service is installed. -/
theorem sectionKept_iff_sample :
    World.RenamedSince sampleManaged (sampleReconfigure true).2
        (tempPath SYSTEM_CONFIG_PATH sampleManaged.proc.pid) SYSTEM_CONFIG_PATH ∧
      ((World.RenamedSince sampleManaged (sampleReconfigure true).2
          (tempPath SYSTEM_CONFIG_PATH sampleManaged.proc.pid) SYSTEM_CONFIG_PATH →
        (sampleReconfigure true).2.updateSection SYSTEM_CONFIG_PATH =
          sampleManaged.updateSection SYSTEM_CONFIG_PATH) ↔
      ∀ s : ReconfigureRun sampleStoreHost SYSTEM_CONFIG_PATH sampleSetupUser (some "Darwin")
          (sampleInstall true) (List.replicate 40 .ok) sampleManaged,
        s.Wrote SYSTEM_CONFIG_PATH → s.Keeps SYSTEM_CONFIG_PATH) := by
  refine ⟨(World.renamedSince_of_nil rfl).mpr (by decide +kernel), ?_⟩
  exact sectionKept_iff (p := (sampleReconfigure true).1) nofun rfl rfl (by decide +kernel)

/-- The section is lost when the service cannot be installed: the setup has saved the configuration
and reports a failure. -/
theorem not_sectionKept_sample :
    (sampleReconfigure false).1 = .ret 1 ∧
      World.RenamedSince sampleManaged (sampleReconfigure false).2
        (tempPath SYSTEM_CONFIG_PATH sampleManaged.proc.pid) SYSTEM_CONFIG_PATH ∧
      (sampleReconfigure false).2.updateSection SYSTEM_CONFIG_PATH ≠
        sampleManaged.updateSection SYSTEM_CONFIG_PATH := by
  refine ⟨Prog.result_eq_ok.mp (by decide +kernel),
    (World.renamedSince_of_nil rfl).mpr (by decide +kernel), fun heq => ?_⟩
  exact absurd (congrArg (fun j => (j.find "policy").isSome) heq) (by decide +kernel)

end ThinrAgent
