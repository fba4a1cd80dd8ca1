import ThinrAgent.Proofs.PowerCut
import ThinrAgent.Proofs.Runtime

/-!
# `ThinrAgent.Proofs.CrashLoop`: crash loops are bounded

A start of the installed binary runs `checkBoot`, goes on with the constructor of its watchdog, and
then with the threads of the watchdog until it dies. It may die at any of these points.
`StartRecord` is what one start did, `Starts` a sequence of starts with a crash or a power cut
between them. What the constructor of the agent does between the boot check and the watchdog (the
certificates and the client) works on none of the files here, and is part of `Proofs.StartUp`.

`Bounded` says what the starts after an update have to do: three of them arm, each with one attempt
more on disk, the fourth restores the backup, and after a rollback no start does either.
`crashLoop_bounded` proves it for an installed binary that reports the version in the marker, by
induction on the starts. Each start moves the world from one of two stages to the next
(`Layout.OnTrial`, `Layout.Over`).
-/

set_option autoImplicit false

namespace ThinrAgent

open Effects

/-! ### Starts -/

/-- What one start of the installed binary did. `booted` is the world after `checkBoot`, and
`last` the world in which the process died. A start that exits after `checkBoot`, or dies before the
watchdog is constructed, has no watchdog in its `runtime`. -/
structure StartRecord (β : Type) where
  image : β
  before : World β
  outcome : BootOutcome
  booted : World β
  events : List (ClientState × String) := []
  runtime : Option (UpdateWatchdog × List (WatchdogThread × SysOp β)) := none
  last : World β

section
variable {β : Type} (host : Host β) (L : Layout)

/-- The environment of the trial: the marker can be read, the backup can be looked up, and records
are written and files renamed without a failure. Where the marker cannot be read a start takes it
for missing, and where the backup cannot be looked up a rollback ends with an exception. -/
def RecordsWork : SysOp β → Choice β → Prop := fun o c =>
  o.vital = true ∨ o = .read (L.path .state) → c.error = none

/-- The end of a process and the start of the next one from the installed path: a crash keeps the
files, and a power cut keeps what is durable. The two binaries are intact after it. -/
inductive Restart (w w' : World β) : Prop where
  | crash (pid : Nat) (next : w' = { w with
      proc := { pid := pid, exe := some (L.path .install) }, inProgress := false })
  | powerCut (pid : Nat) (f : Files β) (cut : w.PowerCut f)
      (install : f (L.path .install) = w.files (L.path .install))
      (prev : f (L.path .prev) = w.files (L.path .prev))
      (next : w' = .ofFiles f { pid := pid, exe := some (L.path .install) })

namespace StartRecord

/-- The threads of the watchdog enter a rollback during this start, for one of the reasons at run
time. -/
def RollsBack (r : StartRecord β) : Prop :=
  ∃ wd log, r.runtime = some (wd, log) ∧ ∃ e ∈ log, e.2 = .enter .rollback

/-- The rest of the start. It exits; or it dies before the constructor of its watchdog has returned,
whatever the answers to this constructor; or the threads of its watchdog run until it dies, but not
in the middle of a rollback. -/
inductive Runs (r : StartRecord β) : Prop where
  | exited (outcome : r.outcome = .revertedExit) (runtime : r.runtime = none)
      (last : r.last = r.booted)
  | died (cs : List (Choice β)) (outcome : r.outcome = .proceed) (runtime : r.runtime = none)
      (last : r.last = ((hostMachine host).after cs
        (UpdateWatchdog.create L.stateDir (host.reportedVersion r.image), r.booted)).2)
  | ran (wd : UpdateWatchdog) (cs : List (Choice β)) (ms : List (WatchdogThread × Choice β))
      (w : World β) (outcome : r.outcome = .proceed)
      (answers : (hostMachine host).Admits (RecordsWork L) cs
        (UpdateWatchdog.create L.stateDir (host.reportedVersion r.image), r.booted))
      (created : (hostMachine host).after cs (UpdateWatchdog.create L.stateDir
        (host.reportedVersion r.image), r.booted) = (.ret wd, w))
      (schedule : Pool.Admits (fun _ => hostMachine host) waitsFor (RecordsWork L) ms
        { threads := watchdogThreads wd r.events, world := w })
      (runtime : r.runtime = some (wd, (watchdogRun wd host r.events w ms).log))
      (last : r.last = (watchdogRun wd host r.events w ms).world)
      (complete : r.RollsBack →
        ∃ e ∈ (watchdogRun wd host r.events w ms).log, e.2 = .raiseSigterm)

/-- A start of the installed binary that gets past `checkBoot`, with answers that leave the records
readable, and that then runs as its record says. -/
structure Valid (r : StartRecord β) : Prop where
  installed : r.before.files (L.path .install) = some (.image r.image)
  boot : ∃ cs, (hostMachine host).Admits (RecordsWork L) cs
      (checkBoot L.stateDir (host.reportedVersion r.image), r.before) ∧
    (hostMachine host).after cs (checkBoot L.stateDir (host.reportedVersion r.image), r.before)
      = (.ret r.outcome, r.booted)
  runs : r.Runs host L

/-- The start arms: the boot check decides so, a power cut leaves the marker with `k` attempts, and
the watchdog is armed if the process lives to construct it. -/
def Arms (m : UpdateMarker) (k : Nat) (r : StartRecord β) : Prop :=
  (L.bootDecision (host.reportedVersion r.image) r.before).action = .arm ∧ r.outcome = .proceed ∧
    (∀ wd log, r.runtime = some (wd, log) → wd.armed = true) ∧
    r.booted.Durable (L.path .state) (.json (m.withAttempts k).toJson)

/-- The start restores the binary `old` and exits before it creates the client, with both records
in place. -/
def Reverts (m : UpdateMarker) (old : β) (r : StartRecord β) : Prop :=
  r.outcome = .revertedExit ∧ r.runtime = none ∧
    L.Recorded (m.withAttempts 4) "crash_loop" r.last ∧
    r.last.files (L.path .install) = some (.image old)

/-- A start of the binary `old` that neither arms nor rolls back, in its boot check or with the
watchdog it may come to construct. -/
def Settled (old : β) (r : StartRecord β) : Prop :=
  r.image = old ∧ (L.bootDecision (host.reportedVersion r.image) r.before).action ≠ .arm ∧
    (L.bootDecision (host.reportedVersion r.image) r.before).action ≠ .rollback ∧
    r.outcome = .proceed ∧ (∀ wd log, r.runtime = some (wd, log) → wd.armed = false) ∧ ¬ r.RollsBack

end StartRecord

/-- A sequence of starts after the world `w`: each one begins in a new process, with the files that
the one before has left. -/
def Starts : World β → List (StartRecord β) → Prop
  | _, [] => True
  | w, r :: rs => Restart L w r.before ∧ r.Valid host L ∧ Starts r.last rs

/-- What the starts have to do when `k` attempts of the trial of `m` are used. -/
def Bounded (new old : β) (m : UpdateMarker) : Nat → List (StartRecord β) → Prop
  | _, [] => True
  | k, r :: rs =>
    r.image = new ∧
      if k < 3 then
        r.Arms host L m (k + 1) ∧
          (r.RollsBack → r.last.files (L.path .install) = some (.image old) ∧
            ∀ s ∈ rs, s.Settled host L old) ∧
          (¬ r.RollsBack → Bounded new old m (k + 1) rs)
      else r.Reverts L m old ∧ ∀ s ∈ rs, s.Settled host L old

end

/-! ### The stages -/

namespace Layout

variable {β : Type} (L : Layout)

/-- The binary `new` is on trial with the backup `old`, and `k` attempts are used. -/
structure OnTrial (new old : β) (m : UpdateMarker) (k : Nat) (w : World β) : Prop where
  install : w.files (L.path .install) = some (.image new)
  prev : w.files (L.path .prev) = some (.image old)
  state : w.Durable (L.path .state) (.json (m.withAttempts k).toJson)

/-- A trial was rolled back to `old`: the marker that says so is there, or it is gone. -/
structure Over (old : β) (w : World β) : Prop where
  install : w.files (L.path .install) = some (.image old)
  state : ∃ m : UpdateMarker, m.phase = .rolledBack ∧
    ∀ e ∈ w.disk (L.path .state), e = none ∨ e = some (.json m.toJson, true)

variable {L} {new old : β} {m : UpdateMarker} {k : Nat} {w w' : World β}

/-- The records of a rollback, over the restored binary. -/
theorem Over.of_recorded {reason : String} (h : L.Recorded m reason w)
    (hinstall : w.files (L.path .install) = some (.image old)) : L.Over old w :=
  ⟨hinstall, m.done, rfl, fun e he => .inr (h.1 e he)⟩

/-- The flags are no part of a trial. -/
theorem OnTrial.of_sameFiles (h : L.OnTrial new old m k w) (hw : w.SameFiles w') :
    L.OnTrial new old m k w' := by
  obtain ⟨r, d, rfl⟩ := hw
  exact ⟨h.install, h.prev, h.state⟩

/-- What a power cut leaves of a durable file is durable. -/
theorem durable_of_powerCut {f : Files β} {p : Path} {content : Content β} {proc : Process}
    (hw : w.Durable p content) (hf : w.PowerCut f) : (World.ofFiles f proc).Durable p content := by
  obtain ⟨e, he, hleaves⟩ := hf p
  rw [hw e he] at hleaves
  intro e' he'
  rw [World.disk_ofFiles, List.mem_singleton] at he'
  rw [he', show f p = some content from hleaves]
  rfl

/-- A crash or a power cut between two starts keeps the trial where it is. -/
theorem OnTrial.restart (h : L.OnTrial new old m k w) (hr : Restart L w w') :
    L.OnTrial new old m k w' := by
  cases hr with
  | crash pid next =>
    subst next
    exact ⟨h.install, h.prev, h.state⟩
  | powerCut pid f cut install prev next =>
    subst next
    refine ⟨?_, ?_, durable_of_powerCut h.state cut⟩
    · rw [World.files_ofFiles, install, h.install]
    · rw [World.files_ofFiles, prev, h.prev]

/-- A crash or a power cut between two starts keeps a trial that is over. -/
theorem Over.restart (h : L.Over old w) (hr : Restart L w w') : L.Over old w' := by
  cases hr with
  | crash pid next =>
    subst next
    exact ⟨h.install, h.state⟩
  | powerCut pid f cut install prev next =>
    subst next
    obtain ⟨m, hphase, hdisk⟩ := h.state
    refine ⟨by rw [World.files_ofFiles, install, h.install], m, hphase, fun e' he' => ?_⟩
    obtain ⟨e, he, hleaves⟩ := cut (L.path .state)
    rw [World.disk_ofFiles, List.mem_singleton] at he'
    rcases hdisk e he with rfl | rfl
    · exact .inl (by rw [he', show f (L.path .state) = none from hleaves]; rfl)
    · exact .inr (by rw [he', show f (L.path .state) = some _ from hleaves]; rfl)

/-- A process after a restart runs the installed path. -/
theorem binaryPath_of_restart (hr : Restart L w w') : w'.proc.binaryPath = L.path .install := by
  cases hr with
  | crash pid next =>
    subst next
    rfl
  | powerCut pid f cut install prev next =>
    subst next
    rfl

end Layout

/-! ### The boot of a trial -/

section Boot

variable {β : Type} {host : Host β} {L : Layout} {A : SysOp β → Choice β → Prop} {new old : β}
  {m : UpdateMarker} {k : Nat} {w : World β} {version : String}

/-- The end that `checkBoot` has for the marker of a trial, where records can be read and written.
-/
theorem Layout.OnTrial.booted (hA : Benign A) (hread : ¬ CanFail A (.read (L.path .state)))
    (hw : L.OnTrial new old m k w) :
    cwp (hostMachine host) A (L.Booting version w) (checkBoot L.stateDir version)
      (fun r v => L.Booted A version w r v ∧
        L.BenignBoot A w (L.bootDecision version w) r v) w := by
  refine cwp_mono checkBoot_spec (fun _ h => h) fun r v _ hbooted => ⟨hbooted, ?_⟩
  refine hbooted.benign hA hread fun content hcontent => ?_
  rw [hw.state.files] at hcontent
  cases hcontent
  exact ⟨_, Content.marker_toJson _⟩

/-- The decision of a start with `k < 3` attempts used. -/
theorem bootDecision_arm (hm : m.phase = .pending) (hversion : version = m.toVersion)
    (hw : L.OnTrial new old m k w) (hk : k < 3) :
    L.bootDecision version w
      = { action := .arm, marker := m.withAttempts (k + 1),
          detail := "new binary on trial; arming watchdog" } := by
  have hbudget : ¬ (m.withAttempts k).counted.attempts > WATCHDOG_MAX_ATTEMPTS := by
    match k, hk with
    | 0, _ => exact show ¬ (0 + 1 : Int32) > 3 by decide
    | 1, _ => exact show ¬ (1 + 1 : Int32) > 3 by decide
    | 2, _ => exact show ¬ (2 + 1 : Int32) > 3 by decide
  rw [Layout.bootDecision, World.marker_of_files hw.state.files,
    decideBoot_arm (m := m.withAttempts k) hm hversion hbudget, m.counted_withAttempts]

/-- A start with `k < 3` attempts used counts one attempt more, and changes nothing else of the
trial. -/
theorem checkBoot_counts (hA : Benign A) (hread : ¬ CanFail A (.read (L.path .state)))
    (hexe : w.proc.binaryPath = L.path .install) (hm : m.phase = .pending)
    (hversion : version = m.toVersion) (hw : L.OnTrial new old m k w) (hk : k < 3) :
    cwp (hostMachine host) A (fun _ => True) (checkBoot L.stateDir version)
      (fun r v => r = .ok .proceed ∧ L.OnTrial new old m (k + 1) v ∧ v.proc = w.proc) w := by
  have hdecision := bootDecision_arm hm hversion hw hk
  refine cwp_mono (hw.booted hA hread) (fun _ _ => trivial) fun r v hbooting hend => ?_
  have hbenign := hend.2
  rw [hdecision] at hbenign
  obtain ⟨hout, hstate⟩ := hbenign
  have hscratch : World.Scratch [L.path (.stateTmp w.proc.pid), L.path .state] w v := by
    cases hbooting with
    | untouched hs => exact hs.mono (List.nil_subset _)
    | clearing hd => simp [hdecision] at hd
    | arming _ hs => exact hs
    | reverting hd => simp [hdecision] at hd
  refine ⟨hout, ⟨(hscratch.files (by simp)).trans hw.install,
    (hscratch.files (by simp)).trans hw.prev, hstate⟩, hscratch.proc fun p hp => ?_⟩
  simp only [List.mem_cons, List.not_mem_nil, or_false] at hp
  rcases hp with rfl | rfl <;> exact Layout.exe_ne hexe (by simp)

/-- The start after three attempts restores the backup, with both records in place. -/
theorem checkBoot_restores (hA : Benign A) (hread : ¬ CanFail A (.read (L.path .state)))
    (hexe : w.proc.binaryPath = L.path .install) (hm : m.phase = .pending)
    (hprev : m.prevBinary = L.path .prev) (hversion : version = m.toVersion)
    (hw : L.OnTrial new old m 3 w) :
    cwp (hostMachine host) A (fun _ => True) (checkBoot L.stateDir version)
      (fun r v => r = .ok .revertedExit ∧ L.Recorded (m.withAttempts 4) "crash_loop" v ∧
        v.files (L.path .install) = some (.image old)) w := by
  -- The fourth start counts itself too, and four attempts are too many.
  have hdecision : L.bootDecision version w
      = { action := .rollback, marker := m.withAttempts 4,
          detail := "crash loop: attempts exhausted" } := by
    rw [Layout.bootDecision, World.marker_of_files hw.state.files,
      decideBoot_rollback (m := m.withAttempts 3) hm hversion (show (3 + 1 : Int32) > 3 by decide),
      m.counted_withAttempts]
  refine cwp_mono (hw.booted hA hread) (fun _ _ => trivial) fun r v _ hend => ?_
  obtain ⟨hbooted, hbenign⟩ := hend
  rw [hdecision] at hbenign
  have hnonempty : m.prevBinary ≠ "" := by
    rw [hprev]
    exact L.path_prev_ne_empty
  have hbackup : w.files (m.withAttempts 4).prevBinary ≠ none := by
    rw [show (m.withAttempts 4).prevBinary = L.path .prev from hprev, hw.prev]
    simp
  obtain ⟨hout, hrecorded⟩ := hbenign hnonempty hbackup
  refine ⟨hout, hrecorded, ?_⟩
  -- What is installed is what the rename has moved: the backup.
  have hrecording := (hbooted.reverted hout).2
  rw [hdecision, hexe, show (m.withAttempts 4).prevBinary = L.path .prev from hprev] at hrecording
  exact ((restoresInstalled_of_recording hrecording).mpr (.inl rfl)).1.trans hw.prev

end Boot

/-! ### One start -/

section Starts

variable {β : Type} {host : Host β} {L : Layout} {new old : β} {m : UpdateMarker} {k : Nat}
  {r : StartRecord β}

/-- Where the records work, no operation fails that writes a record or restores a backup. -/
theorem benign_recordsWork : Benign (RecordsWork (β := β) L) := by
  rintro o ho ⟨c, e, hc, he⟩
  rw [hc (.inl ho)] at he
  cases he

/-- Where the records work, the marker can be read. -/
theorem not_canFail_readMarker : ¬ CanFail (RecordsWork (β := β) L) (.read (L.path .state)) := by
  rintro ⟨c, e, hc, he⟩
  rw [hc (.inr rfl)] at he
  cases he

/-- The boot of a start has the end that `checkBoot` has where records work. -/
theorem StartRecord.Valid.booted (h : r.Valid host L) :
    L.Booting (host.reportedVersion r.image) r.before r.booted ∧
      L.Booted (RecordsWork L) (host.reportedVersion r.image) r.before
        (.ok r.outcome) r.booted := by
  obtain ⟨cs, hcs, hend⟩ := h.boot
  have hbooting := cwp_after_inv checkBoot_spec hcs
  have hbooted := cwp_after_ret checkBoot_spec hcs (congrArg Prod.fst hend)
  rw [hend] at hbooting hbooted
  exact ⟨hbooting, hbooted⟩

/-- A start that does not exit dies before it has a watchdog, in the world that `checkBoot` left, or
its watchdog has read the marker of this world. -/
theorem StartRecord.Valid.created (h : r.Valid host L) (hout : r.outcome = .proceed) :
    (r.runtime = none ∧ r.last = r.booted) ∨ ∃ wd ms, wd =
    UpdateWatchdog.ofMarker L.stateDir (host.reportedVersion r.image)
        (r.booted.marker L.stateDir) ∧
      Pool.Admits (fun _ => hostMachine host) waitsFor (RecordsWork L) ms
        { threads := watchdogThreads wd r.events, world := r.booted } ∧
      r.runtime = some (wd, (watchdogRun wd host r.events r.booted ms).log) ∧
      r.last = (watchdogRun wd host r.events r.booted ms).world ∧
      (r.RollsBack →
        ∃ e ∈ (watchdogRun wd host r.events r.booted ms).log, e.2 = .raiseSigterm) := by
  cases h.runs with
  | exited outcome => simp [outcome] at hout
  | died cs outcome runtime last =>
    exact .inl ⟨runtime, last.trans (cwp_after_inv create_spec (admits_anyAnswer _ cs _))⟩
  | ran wd cs ms w outcome answers created schedule runtime last complete =>
    obtain ⟨hw, hwd⟩ := cwp_after_ret create_spec answers (congrArg Prod.fst created)
    rw [created] at hw
    obtain rfl : w = r.booted := hw
    refine .inr ⟨wd, ms, ?_, schedule, runtime, last, complete⟩
    exact (hwd wd rfl).resolve_right fun hf => not_canFail_readMarker hf.1

/-- Whether a start with these threads rolls back is in their record. -/
theorem StartRecord.rollsBack_iff {wd : UpdateWatchdog} {log : List (WatchdogThread × SysOp β)}
    (h : r.runtime = some (wd, log)) : r.RollsBack ↔ ∃ e ∈ log, e.2 = .enter .rollback := by
  unfold StartRecord.RollsBack
  rw [h]
  constructor
  · rintro ⟨_, _, ⟨⟩, he⟩
    exact he
  · exact fun he => ⟨wd, log, rfl, he⟩

/-- A start without a watchdog does not roll back with it. -/
theorem StartRecord.not_rollsBack (h : r.runtime = none) : ¬ r.RollsBack := by
  rintro ⟨wd, log, hruntime, -⟩
  rw [h] at hruntime
  cases hruntime

/-- A start after a rollback is settled, and leaves the trial over. -/
theorem settled_of_over (h : r.Valid host L) (hw : L.Over old r.before) :
    r.Settled host L old ∧ L.Over old r.last := by
  obtain ⟨m, hphase, hdisk⟩ := hw.state
  -- The marker is rolled back or gone, so the decision leaves every file alone.
  have hfile : r.before.files (L.path .state) = none ∨
      r.before.files (L.path .state) = some (.json m.toJson) :=
    (hdisk _ List.mem_cons_self).imp (fun h => by rw [World.files_eq, h]; rfl)
      fun h => by rw [World.files_eq, h]; rfl
  have hmarker : r.before.marker L.stateDir = none ∨ r.before.marker L.stateDir = some m :=
    hfile.imp World.marker_of_none World.marker_of_files
  have haction : (L.bootDecision (host.reportedVersion r.image) r.before).action = .cleanStart ∨
      (L.bootDecision (host.reportedVersion r.image) r.before).action = .reportRolledBack := by
    rw [Layout.bootDecision]
    rcases hmarker with hnone | hsome
    · rw [hnone]
      exact .inl rfl
    · rw [hsome, decideBoot_rolledBack hphase]
      exact .inr rfl
  obtain ⟨hbooting, hbooted⟩ := h.booted
  have hscratch : World.Scratch [] r.before r.booted := by
    cases hbooting with
    | untouched hs => exact hs
    | clearing hd => rcases haction with ha | ha <;> simp [ha] at hd
    | arming hd => rcases haction with ha | ha <;> simp [ha] at hd
    | reverting hd => rcases haction with ha | ha <;> simp [ha] at hd
  have hout : r.outcome = .proceed := by
    cases hr : r.outcome with
    | proceed => rfl
    | revertedExit =>
      have hd := (hbooted.reverted (by rw [hr])).1
      rcases haction with ha | ha <;> simp [ha] at hd
  have himage : r.image = old := by
    have := h.installed.symm.trans hw.install
    cases this
    rfl
  have harm : (L.bootDecision (host.reportedVersion r.image) r.before).action ≠ .arm := by
    rcases haction with ha | ha <;> simp [ha]
  have hrevert : (L.bootDecision (host.reportedVersion r.image) r.before).action ≠ .rollback := by
    rcases haction with ha | ha <;> simp [ha]
  have hinstall : r.booted.files (L.path .install) = some (.image old) :=
    (hscratch.files List.not_mem_nil).trans hw.install
  have hbootedDisk : ∀ e ∈ r.booted.disk (L.path .state), e = none ∨ e =
    some (.json m.toJson, true) :=
    fun e he => hdisk e (hscratch.disk _ List.not_mem_nil he)
  rcases h.created hout with ⟨hruntime, hlast⟩ | ⟨wd, ms, hwd, -, hruntime, hlast, -⟩
  · refine ⟨⟨himage, harm, hrevert, hout, ?_, StartRecord.not_rollsBack hruntime⟩, ?_⟩
    · rintro wd log hsome
      rw [hruntime] at hsome
      cases hsome
    · rw [hlast]
      exact ⟨hinstall, m, hphase, hbootedDisk⟩
  · have harmed : wd.armed = false := by
      rw [Bool.eq_false_iff, hwd, hscratch.marker (by simp)]
      intro harmed
      obtain ⟨m', hm', hp, -⟩ := UpdateWatchdog.armed_ofMarker.mp harmed
      rcases hmarker with hnone | hsome
      · rw [hnone] at hm'
        cases hm'
      · rw [hsome] at hm'
        cases hm'
        rw [hphase] at hp
        cases hp
    obtain ⟨hlog, hremoved⟩ := watchdogRun_unarmed host r.booted r.events ms harmed
    rw [← hlast, UpdateWatchdog.markerPath, hwd, UpdateWatchdog.stateDir_ofMarker] at hremoved
    refine ⟨⟨himage, harm, hrevert, hout, ?_, ?_⟩, ?_, m, hphase, fun e he => ?_⟩
    · rintro wd' log hsome
      rw [hruntime] at hsome
      cases hsome
      exact harmed
    · rw [StartRecord.rollsBack_iff hruntime]
      rintro ⟨e, he, heq⟩
      exact hlog e he heq
    · rw [hremoved.files _ (show L.path .install ≠ L.path .state by simp), hinstall]
    · exact (hremoved.disk e he).elim .inl (hbootedDisk e)

/-- A start with `k < 3` attempts used arms with one attempt more. Then the trial goes on, or a
rollback at run time ends it. -/
theorem arms_of_onTrial (h : r.Valid host L) (hexe : r.before.proc.binaryPath = L.path .install)
    (hm : m.phase = .pending) (hprev : m.prevBinary = L.path .prev)
    (hversion : host.reportedVersion new = m.toVersion) (hw : L.OnTrial new old m k r.before)
    (hk : k < 3) (hready : ∀ e ∈ r.events, e.1 ≠ .streamsReady) :
    r.Arms host L m (k + 1) ∧ (r.RollsBack → L.Over old r.last) ∧
      (¬ r.RollsBack → L.OnTrial new old m (k + 1) r.last) := by
  have himage : r.image = new := by
    have := h.installed.symm.trans hw.install
    cases this
    rfl
  -- What the boot check has done: one attempt more is on disk, and the start goes on.
  obtain ⟨cs, hcs, hend⟩ := h.boot
  have hbooted := cwp_after_ret (checkBoot_counts benign_recordsWork not_canFail_readMarker hexe hm
    (himage ▸ hversion) hw hk) hcs (congrArg Prod.fst hend)
  rw [hend] at hbooted
  obtain ⟨hout, htrial, hproc⟩ := hbooted
  have hout : r.outcome = .proceed := Except.ok.inj hout
  have harm : (L.bootDecision (host.reportedVersion r.image) r.before).action = .arm := by
    rw [bootDecision_arm hm (himage ▸ hversion) hw hk]
  have hstate := htrial.state
  rcases h.created hout with ⟨hruntime, hlast⟩ | ⟨wd, ms, hwd, hms, hruntime, hlast, hcomplete⟩
  · -- The process died before it had a watchdog, in the world with the attempt counted.
    have hnone := StartRecord.not_rollsBack hruntime
    refine ⟨⟨harm, hout, fun wd log hsome => ?_, hstate⟩, fun hroll => absurd hroll hnone,
      fun _ => hlast ▸ htrial⟩
    rw [hruntime] at hsome
    cases hsome
  rw [World.marker_of_files hstate.files] at hwd
  -- The watchdog is armed, as the marker is pending for the version that runs.
  have harmed : wd.armed = true := by
    rw [hwd]
    exact UpdateWatchdog.armed_ofMarker.mpr ⟨_, rfl, hm, himage ▸ hversion⟩
  have hproc : r.booted.proc.binaryPath = L.path .install := hproc ▸ hexe
  have hmarker : wd.marker = m.withAttempts (k + 1) := by
    rw [hwd, UpdateWatchdog.marker_ofMarker]
  refine ⟨⟨harm, hout, fun wd' log hsome => ?_, hstate⟩, ?_⟩
  · rw [hruntime] at hsome
    cases hsome
    exact harmed
  -- Its threads keep the files, or one of them rolls back, and then it comes to the end.
  have hrun := watchdogRun_armed r.events harmed hms
    Restored.of_sameFiles (begins_rollback benign_recordsWork
      (by rw [hwd, UpdateWatchdog.stateDir_ofMarker])
      (by rw [hmarker]; exact hprev) hproc htrial.prev) hready
  rw [← hlast] at hrun
  rw [StartRecord.rollsBack_iff hruntime] at hcomplete ⊢
  rcases hrun with ⟨hnone, hsame⟩ | ⟨hentered, hrestored⟩
  · exact ⟨fun ⟨e, he, heq⟩ => absurd heq (hnone e he), fun _ => htrial.of_sameFiles hsame⟩
  · obtain ⟨⟨reason, hrecorded⟩, hinstall⟩ := hrestored (hcomplete hentered)
    exact ⟨fun _ => .of_recorded hrecorded hinstall, fun hnot => absurd hentered hnot⟩

/-- The start after three attempts restores the backup before there is a client. -/
theorem reverts_of_onTrial (h : r.Valid host L)
    (hexe : r.before.proc.binaryPath = L.path .install) (hm : m.phase = .pending)
    (hprev : m.prevBinary = L.path .prev) (hversion : host.reportedVersion new = m.toVersion)
    (hw : L.OnTrial new old m 3 r.before) :
    r.image = new ∧ r.Reverts L m old ∧ L.Over old r.last := by
  have himage : r.image = new := by
    have := h.installed.symm.trans hw.install
    cases this
    rfl
  obtain ⟨cs, hcs, hend⟩ := h.boot
  have hbooted := cwp_after_ret
    (checkBoot_restores benign_recordsWork not_canFail_readMarker hexe hm
    hprev (himage ▸ hversion) hw) hcs (congrArg Prod.fst hend)
  rw [hend] at hbooted
  obtain ⟨hout, hrecorded, hinstall⟩ := hbooted
  have hout : r.outcome = .revertedExit := Except.ok.inj hout
  cases h.runs with
  | exited _ hruntime hlast =>
    rw [hlast]
    exact ⟨himage, ⟨hout, hruntime, hlast ▸ hrecorded, hlast ▸ hinstall⟩,
      .of_recorded hrecorded hinstall⟩
  | died _ hproceed => simp [hproceed] at hout
  | ran _ _ _ _ hproceed => simp [hproceed] at hout

/-! ### Every sequence of starts -/

/-- After a rollback every start is settled: the old binary is installed, and nothing is on
trial. -/
theorem starts_settled {w : World β} {rs : List (StartRecord β)} (hrs : Starts host L w rs)
    (hw : L.Over old w) : ∀ s ∈ rs, s.Settled host L old := by
  induction rs generalizing w with
  | nil => simp
  | cons r rs ih =>
    obtain ⟨hrestart, hvalid, hrest⟩ := hrs
    obtain ⟨hsettled, hover⟩ := settled_of_over hvalid (hw.restart hrestart)
    intro s hs
    rcases List.mem_cons.mp hs with rfl | hs
    · exact hsettled
    · exact ih hrest hover s hs

/-- The bound, from a trial with `k` of its attempts used, by induction on the starts. -/
theorem starts_bounded {w : World β} {rs : List (StartRecord β)} (hrs : Starts host L w rs)
    (hm : m.phase = .pending) (hprev : m.prevBinary = L.path .prev)
    (hversion : host.reportedVersion new = m.toVersion) (hw : L.OnTrial new old m k w) (hk : k ≤ 3)
    (hready : ∀ r ∈ rs, r.image = new → ∀ e ∈ r.events, e.1 ≠ .streamsReady) :
    Bounded host L new old m k rs := by
  -- Each start uses an attempt until three are used. Then one start reverts.
  induction rs generalizing w k with
  | nil => trivial
  | cons r rs ih =>
    obtain ⟨hrestart, hvalid, hrest⟩ := hrs
    have hexe := Layout.binaryPath_of_restart hrestart
    have htrial := hw.restart hrestart
    -- A start arms while attempts are left, and the stage after it is the next or the last one.
    by_cases hk3 : k < 3
    · have himage : r.image = new := by
        have := hvalid.installed.symm.trans htrial.install
        cases this
        rfl
      obtain ⟨harms, hover, hnext⟩ := arms_of_onTrial hvalid hexe hm hprev hversion htrial hk3
        (hready r List.mem_cons_self himage)
      refine ⟨himage, ?_⟩
      rw [if_pos hk3]
      refine ⟨harms, fun hroll => ⟨(hover hroll).install, starts_settled hrest (hover hroll)⟩,
        fun hroll => ih hrest (hnext hroll) hk3 fun s hs => hready s (List.mem_cons_of_mem r hs)⟩
    · obtain rfl : k = 3 := by omega
      obtain ⟨himage, hreverts, hover⟩ := reverts_of_onTrial hvalid hexe hm hprev hversion htrial
      refine ⟨himage, ?_⟩
      rw [if_neg hk3]
      exact ⟨hreverts, starts_settled hrest hover⟩

/-- After every update to `b` that reports success: when `b` reports the version of the request
and its starts do not get the streams ready, the starts do what `Bounded` says. -/
theorem crashLoop_bounded (host : Host β) (L : Layout) (build : Build) (req : ApplyRequest)
    (b old : β) (w : World β) (hdir : req.stateDir = L.stateDir)
    (hexe : w.proc.binaryPath = L.path .install)
    (hold : w.files (L.path .install) = some (.image old)) (cs : List (Choice β))
    (hcs : (hostMachine host).Admits (fun o c => RecordsWork L o c ∧ deliversOnly b o c) cs
      (applyWithWatchdog host build req, w))
    (res : ApplyResult)
    (hend : ((hostMachine host).after cs (applyWithWatchdog host build req, w)).1 = .ret res)
    (hupdated : res.st = .updated) (hversion : host.reportedVersion b = req.version)
    (rs : List (StartRecord β))
    (hrs : Starts host L ((hostMachine host).after cs (applyWithWatchdog host build req, w)).2 rs)
    (hready : ∀ r ∈ rs, r.image = b → ∀ e ∈ r.events, e.1 ≠ .streamsReady) :
    ∃ startedAt,
      Bounded host L b old (pendingMarker build req (L.path .install) startedAt) 0 rs := by
  -- The trial begins with the swap: the marker of the request, and the old binary as the backup.
  have hbenign : Benign fun (o : SysOp β) c => RecordsWork L o c ∧ deliversOnly b o c := by
    rintro o ho ⟨c, e, hc, he⟩
    exact benign_recordsWork o ho ⟨c, e, hc.1, he⟩
  obtain ⟨b', ⟨c, hc, hleft⟩, -, hswap, hdurable⟩ :=
    cwp_after_ret (applyWithWatchdog_spec hdir fun _ => hexe) hcs hend res rfl hupdated
  obtain rfl : b' = b := hc.2 b' hleft
  obtain ⟨t, hstate⟩ := hdurable hbenign
  refine ⟨t, starts_bounded hrs rfl rfl hversion ⟨?_, ?_, hstate⟩ (by omega) hready⟩
  · rw [World.files_eq, hswap.install]
    rfl
  · obtain ⟨content, hcontent, hprev⟩ := hswap.prev
    rw [hprev, ← hcontent, hold]

end Starts

/-! ### Sample starts -/

/-- The world in which the next process starts after a crash in `w`. -/
def sampleNext (w : World Nat) : World Nat :=
  { w with proc := { pid := 1, exe := some (Layout.system.path .install) }, inProgress := false }

/-- The boot of the binary 2 after a crash in `w`. -/
def sampleBoot (w : World Nat) : SysM Nat BootOutcome × World Nat :=
  (hostMachine sampleHost).after (List.replicate 24 .ok)
    (checkBoot Layout.system.stateDir (sampleHost.reportedVersion 2), sampleNext w)

/-- A start of the binary 2 after a crash in `w`, that dies as soon as it has its watchdog, or
before it has one. -/
def sampleStart (outcome : BootOutcome) (watched : Bool) (w : World Nat) : StartRecord Nat where
  image := 2
  before := sampleNext w
  outcome := outcome
  booted := (sampleBoot w).2
  runtime :=
    if watched then
      some (UpdateWatchdog.ofMarker Layout.system.stateDir (sampleHost.reportedVersion 2)
        ((sampleBoot w).2.marker Layout.system.stateDir), [])
    else none
  last := (sampleBoot w).2

/-- What the construction of the watchdog of a sample start returns. -/
def sampleCreated (w : World Nat) : Option (Except Exc UpdateWatchdog) :=
  ((hostMachine sampleHost).after [.ok] (UpdateWatchdog.create Layout.system.stateDir
    (sampleHost.reportedVersion 2), (sampleBoot w).2)).1.result

/-- An operation that succeeds is one that works. -/
private theorem recordsWork_ok {o : SysOp Nat} : RecordsWork .system o .ok := fun _ => rfl

/-- A start of the sample is a start, when its boot and the constructor end as recorded. -/
theorem sampleStart_valid {outcome : BootOutcome} {watched : Bool} {w : World Nat}
    (hinstalled : w.image (Layout.system.path .install) = some 2)
    (hboot : (sampleBoot w).1.result = some (.ok outcome))
    (hexited : outcome = .revertedExit → watched = false)
    (hcreated : watched = true → sampleCreated w = some (.ok (UpdateWatchdog.ofMarker
      Layout.system.stateDir (sampleHost.reportedVersion 2)
        ((sampleBoot w).2.marker Layout.system.stateDir)))) :
    (sampleStart outcome watched w).Valid sampleHost .system := by
  have hall (cs : List (Choice Nat)) (h : ∀ c ∈ cs, c = .ok) {α : Type}
    (s : SysM Nat α × World Nat) :
      (hostMachine sampleHost).Admits (RecordsWork .system) cs s :=
    admits_of_forall _ (fun c hc o => h c hc ▸ recordsWork_ok) s
  refine ⟨World.files_of_image hinstalled, ⟨List.replicate 24 .ok, hall _ (by simp) _,
    Prod.ext (Prog.result_eq_ok.mp hboot) rfl⟩, ?_⟩
  cases outcome with
  | revertedExit =>
    obtain rfl := hexited rfl
    exact .exited rfl rfl rfl
  | proceed =>
    cases watched with
    | false => exact .died [] rfl rfl rfl
    | true =>
      refine .ran _ [.ok] [] _ rfl (hall _ (by simp) _)
        (Prod.ext (Prog.result_eq_ok.mp (hcreated rfl)) rfl) trivial rfl rfl ?_
      rintro ⟨_, _, ⟨⟩, e, he, -⟩
      simp at he

/-- Three starts that arm and die, the second of them before it has a watchdog, and the fourth. -/
def sampleStarts (w : World Nat) : List (StartRecord Nat) :=
  let first := sampleStart .proceed true w
  let second := sampleStart .proceed false first.last
  let third := sampleStart .proceed true second.last
  [first, second, third, sampleStart .revertedExit false third.last]

/-- Four starts after the sample update: three that fail, and the one that rolls back. -/
theorem crashLoop_bounded_sample : ∃ startedAt, Bounded sampleHost .system 2 1
    (pendingMarker sampleBuild (sampleRequest "2") (Layout.system.path .install) startedAt) 0
      (sampleStarts (sampleUpdate "2").2) :=
  crashLoop_bounded sampleHost .system sampleBuild (sampleRequest "2") 2 1 sampleWorld rfl rfl
    (by simp [sampleWorld, Layout.path]) sampleAnswers
    (admits_of_forall _ (fun _ hc o => ⟨fun _ => sampleAnswers_error hc,
      sampleAnswers_deliver hc o⟩) _)
    (sampleUpdated "2") (Prog.result_eq_ok.mp (by decide +kernel)) rfl (by decide +kernel) _
    ⟨.crash 1 rfl, sampleStart_valid (by decide +kernel) (by decide +kernel) (by simp)
        (fun _ => by decide +kernel),
      .crash 1 rfl, sampleStart_valid (by decide +kernel) (by decide +kernel) (by simp) (by simp),
      .crash 1 rfl, sampleStart_valid (by decide +kernel) (by decide +kernel) (by simp)
        (fun _ => by decide +kernel),
      .crash 1 rfl, sampleStart_valid (by decide +kernel) (by decide +kernel) (by simp) (by simp),
      trivial⟩
    (by simp [sampleStarts, sampleStart])

/-- The manifest says 2.0 and the binary reports 2: the update succeeds, and its first start arms
nothing. -/
theorem not_bounded_sample :
    (sampleUpdate "2.0").1.result = some (.ok (sampleUpdated "2.0")) ∧
      Starts sampleHost .system (sampleUpdate "2.0").2
        [sampleStart .proceed true (sampleUpdate "2.0").2] ∧
      ¬ ∃ startedAt, Bounded sampleHost .system 2 1
        (pendingMarker sampleBuild (sampleRequest "2.0") (Layout.system.path .install) startedAt) 0
          [sampleStart .proceed true (sampleUpdate "2.0").2] := by
  refine ⟨by decide +kernel, ⟨.crash 1 rfl, sampleStart_valid (by decide +kernel)
    (by decide +kernel) (by simp) (fun _ => by decide +kernel), trivial⟩, ?_⟩
  rintro ⟨t, -, h⟩
  rw [if_pos (by decide)] at h
  have hmarker := World.marker_of_files h.1.2.2.2.files
  rw [show (sampleStart .proceed true (sampleUpdate "2.0").2).booted.marker Layout.system.stateDir
    = none by decide +kernel] at hmarker
  cases hmarker

end ThinrAgent
