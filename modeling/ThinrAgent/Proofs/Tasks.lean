import ThinrAgent.Proofs.Cycle
import ThinrAgent.Proofs.StaleMarker

/-!
# `ThinrAgent.Proofs.Tasks`: what a process does to the records

A process of the device does one task: a poll cycle up to its request, an apply, a start, an event
of the watchdog, the deadline. `Task.trial` is the trial that a task may roll back. `Passed` is
what is true of the records wherever a task stops: it has left `update.reverted` alone, or it is
recording the rollback of its trial. `task_passed` has one lemma for each task.
-/

set_option autoImplicit false

namespace ThinrAgent

open Effects

/-! ### The tasks -/

/-- The path of the backup is one that an apply writes. -/
def UpdateMarker.Named (m : UpdateMarker) : Prop :=
  m.prevBinary = "" ∨ ∃ install, m.prevBinary = prevPath install

/-- The process runs an installation with the records of `dir`, and not a backup. -/
def Process.RunsIn (proc : Process) (dir : Path) : Prop :=
  ∃ L : Layout, L.stateDir = dir ∧ proc.binaryPath = L.path .install ∧
    ∀ install, L.path .install ≠ prevPath install

/-- What a process of the device does. The `poll` is a cycle up to its request. -/
inductive Task where
  | poll (build : Build) (p : UpdatePoller) (user : User)
  | apply (build : Build) (req : ApplyRequest)
  | boot (version : String)
  | event (wd : UpdateWatchdog) (state : ClientState) (reason : String)
  | deadline (wd : UpdateWatchdog)

/-- The watchdog that does the task, and nothing for a task of the poller or of an update. -/
def Task.watchdog? : Task → Option UpdateWatchdog
  | event wd _ _ => some wd
  | deadline wd => some wd
  | _ => none

/-- The trial that the task can roll back in `w`, and the reason. -/
def Task.trial {β : Type} (dir : Path) (w : World β) : Task → Option (UpdateMarker × String)
  | boot version =>
    let d := decideBoot (w.marker dir) version
    if d.action = .rollback then some (d.marker, "crash_loop") else none
  | event wd _ _ => some (wd.marker, "auth_failed")
  | deadline wd => some (wd.marker, "deadline")
  | _ => none

section Programs

variable {β : Type} (host : Host β) (cast : Json.FloatCast) (f : Fractions) (dir : Path)

/-- The cycle of a poll in `dir` up to its request. -/
def UpdatePoller.pollIn (p : UpdatePoller) (build : Build) (user : User) :
    SysM β (UpdateSettings × Option ApplyRequest) :=
  { p with stateDir := dir }.upToRequest build cast f user

/-- The program of a task, with the watchdog it leaves. -/
def Task.prog : Task → SysM β (Option UpdateWatchdog)
  | poll build p user => do
    let _ ← p.pollIn cast f dir build user
    return none
  | apply build req => do
    let _ ← applyWithWatchdog host build { req with stateDir := dir }
    return none
  | boot version => do return some (← startUp dir version)
  | event wd state reason => do return some (← wd.onState state reason)
  | deadline wd => do
    if wd.armed then wd.deadlineLoop
    return none

end Programs

/-! ### What a task does to the records -/

section Records

variable {β : Type} {L : Layout} {m : UpdateMarker} {reason : String} {w w₁ v : World β}

/-- A backup next to the binary is none of the two records or their temporary files. -/
theorem prevPath_not_mem_records (install : Path) (pid : Nat) :
    prevPath install ∉ L.records pid := by
  have hlast : lastChar (prevPath install) = some 'v' := by
    rw [prevPath, lastChar_append _ (by decide)]
    rfl
  have joined {file : String} {c : Char} (hc : lastChar file = some c) (hne : file.toList ≠ [])
      (hv : c ≠ 'v') : prevPath install ≠ pathJoin L.stateDir file := by
    refine ne_of_lastChar ?_
    rw [hlast, lastChar_pathJoin _ hne, hc]
    simpa using hv.symm
  have temp (path : Path) : prevPath install ≠ tempPath path pid := by
    obtain ⟨c, hc, hdigit⟩ := lastChar_tempPath path pid
    refine ne_of_lastChar ?_
    rw [hlast, hc]
    rintro ⟨rfl⟩
    exact absurd hdigit (by decide)
  simp only [Layout.records, List.mem_cons, List.not_mem_nil, or_false, not_or]
  exact ⟨joined (c := 'e') (by decide) (by decide) (by decide),
    joined (c := 'd') (by decide) (by decide) (by decide), temp _, temp _⟩

/-- The backup of a named marker is none of the records. -/
theorem UpdateMarker.Named.not_mem_records (h : m.Named) (hne : m.prevBinary ≠ "") (pid : Nat) :
    m.prevBinary ∉ L.records pid := by
  obtain ⟨install, hinstall⟩ := h.resolve_left hne
  rw [hinstall]
  exact prevPath_not_mem_records install pid

/-- A process enters `w`: it runs an installation, and the marker on disk is named. -/
structure Entered (L : Layout) (w : World β) : Prop where
  renamed : w.renamed = []
  exe : w.proc.binaryPath = L.path .install
  backup : ∀ install, L.path .install ≠ prevPath install
  marker : ∀ m, w.marker L.stateDir = some m → m.Named

/-- The beginning of a task speaks of the files, so the flags may have changed. -/
theorem Entered.sameFiles (h : Entered L w) (hw : w.SameFiles w₁) : Entered L w₁ := by
  obtain ⟨r, d, rfl⟩ := hw
  exact ⟨h.renamed, h.exe, h.backup, h.marker⟩

/-- The states of a task that may roll back `trial`, from `w`. It has left the record alone, or it
has begun to record a rollback. A rollback that ends has recorded its verdict, where its
operations work. -/
inductive Passed (L : Layout) (A : SysOp β → Choice β → Prop)
    (trial : Option (UpdateMarker × String)) (w : World β) (ended : Prop) (v : World β) : Prop where
  | spared (reverted : v.files (L.path .reverted) = w.files (L.path .reverted))
      (marker : ∀ m, v.marker L.stateDir = some m → m.Named)
      (kept : ∀ m reason, trial = some (m, reason) →
        (m.prevBinary, w.proc.binaryPath) ∉ v.renamed)
  | rolled (m : UpdateMarker) (reason : String) (ht : trial = some (m, reason)) (hm : m.Named)
      (hne : m.prevBinary ≠ "") (u : World β) (hu : w.SameFiles u)
      (h : L.Recording m reason (u.rename m.prevBinary u.proc.binaryPath) v)
      (recorded : ended → Benign A → L.RecordedIn A m reason v)

variable {A : SysOp β → Choice β → Prop} {trial : Option (UpdateMarker × String)} {ended : Prop}
  {X : List Path}

/-- A task that writes neither the record nor the binary has passed no verdict. -/
theorem Passed.of_scratch (hw : Entered L w) (hw₁ : w.SameFiles w₁) (hs : World.Scratch X w₁ v)
    (hinstall : L.path .install ∉ X) (hreverted : L.path .reverted ∉ X)
    (hmarker : L.path .state ∈ X → ∀ m, v.marker L.stateDir = some m → m.Named) :
    Passed L A trial w ended v := by
  obtain ⟨r, d, rfl⟩ := hw₁
  refine .spared (hs.files hreverted) ?_ fun m reason _ hmem => ?_
  · by_cases hX : L.path .state ∈ X
    · exact hmarker hX
    · intro m hm
      rw [hs.marker hX] at hm
      exact hw.marker m hm
  · have hsince : World.RenamedSince (w.setFlags r d) v m.prevBinary w.proc.binaryPath :=
      (World.renamedSince_of_nil hw.renamed).mpr hmem
    have hmem := (hs.mem_of_renamedSince hsince).2
    rw [hw.exe] at hmem
    exact hinstall hmem

/-- A task that has changed no file has left the record alone. -/
theorem Passed.of_sameFiles (hw : Entered L w) (hw₁ : w.SameFiles w₁) :
    Passed L A trial w ended w₁ :=
  .of_scratch hw hw₁ (World.Scratch.refl [] w₁) (by simp) (by simp) (by simp)

/-- What is true where a task ends is true where it stops. -/
theorem Passed.not_ended (h : Passed L A trial w ended v) : Passed L A trial w False v := by
  cases h with
  | spared reverted marker kept => exact .spared reverted marker kept
  | rolled m reason ht hm hne u hu h _ => exact .rolled m reason ht hm hne u hu h False.elim

/-- What a rollback that is being recorded has done to the records. -/
theorem Layout.Recording.marker_named (h : L.Recording m reason (w.rename m.prevBinary
    w.proc.binaryPath) v) (hw : Entered L w) (hm : m.Named) (hne : m.prevBinary ≠ "") :
    ∀ m', v.marker L.stateDir = some m' → m'.Named := by
  intro m' hm'
  rcases h.state with ⟨hstate, -⟩ | ⟨hstate, -⟩
  -- The marker is not written yet, and the rename of the backup leaves it as it was.
  · have hdiffers : m.prevBinary ≠ w.proc.binaryPath := by
      obtain ⟨install, hinstall⟩ := hm.resolve_left hne
      rw [hinstall, hw.exe]
      exact (hw.backup install).symm
    have hmem := hm.not_mem_records (L := L) hne 0
    have hkept : (w.rename m.prevBinary w.proc.binaryPath).files (L.path .state) =
        w.files (L.path .state) := by
      rw [World.rename, if_neg hdiffers]
      refine (World.Scratch.move w _ _).files ?_
      rw [hw.exe]
      simp only [Layout.records, List.mem_cons, not_or] at hmem
      simpa using Ne.symm hmem.1
    rw [World.marker, L.stateFile_stateDir, hstate, hkept, ← L.stateFile_stateDir,
      ← World.marker.eq_1] at hm'
    exact hw.marker m' hm'
  · rw [World.marker_of_files hstate] at hm'
    cases hm'
    exact hm

/-- A task leaves a marker that names a version, or none. -/
theorem Passed.marker (hw : Entered L w) (h : Passed L A trial w ended v) :
    ∀ m, v.marker L.stateDir = some m → m.Named := by
  cases h with
  | spared _ marker _ => exact marker
  | rolled m reason ht hm hne u hu h _ => exact h.marker_named (hw.sameFiles hu) hm hne

/-- A rollback that is being recorded has restored the backup. -/
theorem Passed.renamed_of_recording (hw : Entered L w) (hm : m.Named) (hne : m.prevBinary ≠ "")
    (hw₁ : w.SameFiles w₁)
    (h : L.Recording m reason (w₁.rename m.prevBinary w₁.proc.binaryPath) v) :
    (m.prevBinary, w.proc.binaryPath) ∈ v.renamed := by
  have hw₁' := hw.sameFiles hw₁
  have hexe : w₁.proc.binaryPath = w.proc.binaryPath := hw₁'.exe.trans hw.exe.symm
  have hdiffers : m.prevBinary ≠ w₁.proc.binaryPath := by
    obtain ⟨install, hinstall⟩ := hm.resolve_left hne
    rw [hinstall, hw₁'.exe]
    exact (hw.backup install).symm
  rw [World.rename, if_neg hdiffers] at h
  obtain ⟨l, hl, -⟩ := h.scratch.renamed
  rw [hl, hexe, World.renamed_move]
  simp

end Records

section Tasks

variable {β α : Type} {host : Host β} {A : SysOp β → Choice β → Prop} {L : Layout}
  {w w₁ : World β} {trial : Option (UpdateMarker × String)} {m : UpdateMarker} {reason : String}
  {Q : Except Exc α → World β → Prop}

/-- The end of a task: it has passed, and a watchdog it leaves can act later. -/
def TaskEnds (L : Layout) (A : SysOp β → Choice β → Prop)
    (trial : Option (UpdateMarker × String)) (w : World β)
    (r : Except Exc (Option UpdateWatchdog)) (v : World β) : Prop :=
  Passed L A trial w True v ∧
    ∀ wd, r = .ok (some wd) → wd.stateDir = L.stateDir ∧ wd.marker.Named

/-- The rule for a rollback of the trial that the task is about. -/
theorem wp_doRollback_passed {k : Bool → SysM β α} (hw : Entered L w) (hw₁ : w.SameFiles w₁)
    (hm : m.Named) (ht : trial = some (m, reason))
    (hk : ∀ b v, Passed L A trial w True v →
      cwp (hostMachine host) A (Passed L A trial w False) (k b) Q v)
    (hthrow : Passed L A trial w True w₁ → Q (.error .filesystemError) w₁) :
    cwp (hostMachine host) A (Passed L A trial w False)
      (doRollback L.stateDir m reason >>= k) Q w₁ := by
  have h₁ {ended : Prop} : Passed L A trial w ended w₁ := .of_sameFiles hw hw₁
  refine wp_doRollback_of_answer h₁ (fun _ => hk false w₁ h₁) (fun _ => hthrow h₁) ?_ ?_
  · exact fun v hne _ h => .rolled m reason ht hm hne w₁ hw₁ h.recording False.elim
  · exact fun v hne _ h hend =>
      hk true v (.rolled m reason ht hm hne w₁ hw₁ h.recording fun _ => hend)

/-- The rule for the end of a trial that is settled: the marker is removed, and its backup with
it. -/
theorem wp_clear_passed {γ : Type} {q : SysM β γ} {k : γ → SysM β α} (hw : Entered L w)
    (hw₁ : w.SameFiles w₁) (hm : m.Named)
    (hk : ∀ v, Passed L A trial w True v →
      cwp (hostMachine host) A (Passed L A trial w False) (q >>= k) Q v) :
    cwp (hostMachine host) A (Passed L A trial w False)
      ((removeQuiet (L.path .state) >>= fun _ =>
        if m.prevBinary ≠ "" then removeQuiet m.prevBinary >>= fun _ => q else q) >>= k) Q w₁ := by
  have hexe := (hw.sameFiles hw₁).marker
  rw [Prog.bind_assoc]
  refine wp_removeQuiet (.of_sameFiles hw hw₁) fun v₁ hs₁ hgone₁ => ?_
  -- What is left of the marker is what was there, or nothing.
  have named₁ : ∀ m, v₁.marker L.stateDir = some m → m.Named := by
    rcases hgone₁ with hgone | ⟨-, rfl⟩
    · intro m hm
      rw [World.marker_of_none hgone] at hm
      cases hm
    · exact hexe
  have h₁ {ended : Prop} : Passed L A trial w ended v₁ :=
    .of_scratch hw hw₁ hs₁ (by simp) (by simp) fun _ => named₁
  split
  · rename_i hne
    rw [Prog.bind_assoc]
    refine wp_removeQuiet h₁ fun v₂ hs₂ _ => hk v₂ ?_
    -- The backup is another file than the records, so its removal spares them.
    have hmem := hm.not_mem_records (L := L) hne 0
    simp only [Layout.records, List.mem_cons, not_or] at hmem
    obtain ⟨install, hinstall⟩ := hm.resolve_left hne
    refine .of_scratch hw hw₁ ((hs₁.mono (by simp)).trans (hs₂.mono (by simp)) :
      World.Scratch [L.path .state, m.prevBinary] w₁ v₂) ?_ ?_ fun _ m' hm' => ?_
    · simpa [hinstall] using hw.backup install
    · simpa using Ne.symm hmem.2.1
    · rw [hs₂.marker (by simpa [L.stateFile_stateDir] using Ne.symm hmem.1)] at hm'
      exact named₁ m' hm'
  · exact hk v₁ h₁

/-- A poll cycle up to its request writes nothing. -/
theorem poll_passed {cast : Json.FloatCast} {f : Fractions} {build : Build} {p : UpdatePoller}
    {user : User} (hw : Entered L w) : cwp (hostMachine host) A (Passed L A trial w False)
      (p.pollIn cast f L.stateDir build user >>= fun _ => .ret none) (TaskEnds L A trial w) w := by
  have h {ended : Prop} : Passed L A trial w ended w := .of_sameFiles hw (.refl w)
  refine cwp_bind (cwp_mono upToRequest_spec ?_ ?_)
  · rintro _ rfl
    exact h
  · rintro r v - ⟨rfl, -⟩
    cases r with
    | ok a => exact ⟨h, h, by simp⟩
    | error e => exact ⟨h, by simp⟩

/-- An apply writes no verdict, and the marker it writes is named. -/
theorem apply_passed {build : Build} {req : ApplyRequest} (hw : Entered L w) :
    cwp (hostMachine host) A (Passed L A none w False)
      (applyWithWatchdog host build { req with stateDir := L.stateDir } >>= fun _ => .ret none)
      (TaskEnds L A none w) w := by
  -- An apply does not touch the record, and a marker of its own names its version.
  have passed {X : List Path} {v : World β} {ended : Prop} (hs : World.Scratch X w v)
      (hreverted : L.path .reverted ∉ X)
      (hmarker : L.path .state ∈ X → v.files (L.path .state) = none ∨
        ∃ t, v.files (L.path .state) =
          some (L.pendingContent build { req with stateDir := L.stateDir } t)) :
      Passed L A none w ended v := by
    refine .spared (hs.files hreverted) ?_ nofun
    by_cases hX : L.path .state ∈ X
    · intro m hm
      rcases hmarker hX with hstate | ⟨t, hstate⟩
      · rw [World.marker_of_none hstate] at hm
        cases hm
      · rw [World.marker_of_files hstate] at hm
        cases hm
        exact .inr ⟨_, rfl⟩
    · intro m hm
      rw [hs.marker hX] at hm
      exact hw.marker m hm
  -- The states of an apply: refused, not swapped yet, and swapped.
  have reached {v : World β} {ended : Prop}
      (h : L.Reached build { req with stateDir := L.stateDir } host A w v) :
      Passed L A none w ended v := by
    cases h with
    | refused h => exact passed h (by simp) (by simp)
    | unswapped _ h => exact passed h.scratch (by simp [Layout.work]) fun _ => h.state
    | swapped b _ _ _ h => exact passed h.scratch (by simp [Layout.work]) fun _ => .inr h.state
  refine cwp_bind (cwp_mono (applyWithWatchdog_spec rfl fun _ => hw.exe) (fun v h => reached h) ?_)
  intro r v h _
  cases r with
  | ok a => exact ⟨reached h, reached h, by simp⟩
  | error e => exact ⟨reached h, by simp⟩

/-- A start records the rollback of the trial that its early boot has ended, and nothing else. -/
theorem boot_passed {version : String} (hw : Entered L w) : cwp (hostMachine host) A
      (Passed L A ((Task.boot version).trial L.stateDir w) w False)
      (startUp L.stateDir version >>= fun wd => .ret (some wd))
      (TaskEnds L A ((Task.boot version).trial L.stateDir w) w) w := by
  have h₀ {trial : Option (UpdateMarker × String)} {ended : Prop} : Passed L A trial w ended w :=
    .of_sameFiles hw (.refl w)
  have create {trial : Option (UpdateMarker × String)} {v : World β}
      (hv : Passed L A trial w True v) :
      cwp (hostMachine host) A (Passed L A trial w False)
        (UpdateWatchdog.create L.stateDir version >>= fun wd => .ret (some wd))
        (TaskEnds L A trial w) v := by
    refine cwp_bind (cwp_mono create_spec ?_ ?_)
    · rintro _ rfl
      exact hv.not_ended
    · rintro r v - ⟨rfl, hwd⟩
      cases r with
      | error e => exact ⟨hv, by simp⟩
      | ok wd =>
        refine ⟨hv.not_ended, hv, ?_⟩
        rintro _ ⟨rfl⟩
        rcases hwd wd rfl with rfl | ⟨-, rfl⟩
        · refine ⟨by simp, ?_⟩
          cases hmarker : v.marker L.stateDir with
          | none => exact .inl rfl
          | some m =>
            rw [UpdateWatchdog.marker_ofMarker]
            exact hv.marker hw m hmarker
        · exact ⟨by simp, .inl rfl⟩
  unfold startUp checkBoot
  simp only [Prog.bind_assoc]
  refine wp_readMarkerFile h₀ ?_ (fun _ => create h₀) fun _ _ _ _ => ⟨h₀, by simp⟩
  unfold Task.trial
  simp only
  -- The marker that the decision carries is the one on disk, up to the count.
  have hnamed : (decideBoot (w.marker L.stateDir) version).marker.Named := by
    cases hmarker : w.marker L.stateDir with
    | none => exact .inl rfl
    | some m =>
      have hm := hw.marker m hmarker
      unfold decideBoot
      simp only
      repeat' split
      all_goals first
        | exact hm
        | exact .inl rfl
  generalize decideBoot (w.marker L.stateDir) version = d at hnamed ⊢
  generalize htrial : (if d.action = .rollback then some (d.marker, "crash_loop") else none) = trial
  have proceed {v : World β} (hv : Passed L A trial w True v) := create hv
  unfold actOnBoot
  rw [L.stateFile_stateDir]
  split
  case h_1 hd => exact create h₀
  case h_3 hd => exact create h₀
  case h_2 hd =>
    exact wp_clear_passed hw (.refl w) hnamed fun v hv => proceed hv
  case h_4 hd =>
    rw [Prog.bind_assoc]
    have htmp {v : World β} {ended : Prop}
        (hs : World.Scratch [tempPath (L.path .state) w.proc.pid] w v) :
        Passed L A trial w ended v :=
      .of_scratch hw (.refl w) hs (by simp [L.tempPath_state]) (by simp [L.tempPath_state])
        (by simp [L.tempPath_state])
    have armed {v : World β} {ended : Prop}
        (hr : World.Replaced (tempPath (L.path .state) w.proc.pid) (L.path .state)
          (.json d.marker.toJson) w v) : Passed L A trial w ended v := by
      refine .of_scratch hw (.refl w) hr.scratch (by simp [L.tempPath_state])
        (by simp [L.tempPath_state]) fun _ m hm => ?_
      rw [World.marker_of_files hr.files_target] at hm
      cases hm
      exact hnamed
    exact wp_writeAtomic (fun v hs => htmp hs) (fun v hr => armed hr)
      (fun _ v hs => proceed (htmp hs)) fun v hr _ => proceed (armed hr)
  case h_5 hd =>
    rw [if_pos hd] at htrial
    rw [Prog.bind_assoc]
    refine wp_doRollback_passed hw (.refl w) hnamed htrial.symm (fun b v hv => ?_)
      fun hv => ⟨hv, by simp⟩
    cases b with
    | true => exact ⟨hv.not_ended, hv, by simp⟩
    | false => exact create hv

variable {wd : UpdateWatchdog}

/-- An operation that changes the flags of the process only. -/
theorem wp_flags_passed {o : SysOp β} {k : o.Res → SysM β α} (ho : o.keepsFiles = true)
    (hw : Entered L w) (hw₁ : w.SameFiles w₁)
    (hk : ∀ r v, w.SameFiles v → cwp (hostMachine host) A (Passed L A trial w False) (k r) Q v) :
    cwp (hostMachine host) A (Passed L A trial w False) (.call o k) Q w₁ :=
  ⟨.of_sameFiles hw hw₁, fun c _ => hk _ _ (hw₁.trans (exec_sameFiles_of_keeps host c ho))⟩

/-- The rule for a report, which changes no file of the device. -/
theorem wp_report_passed {event fromVersion toVersion reason : String} {k : Unit → SysM β α}
    {v : World β} (hv : Passed L A trial w True v)
    (hk : cwp (hostMachine host) A (Passed L A trial w False) (k ()) Q v) :
    cwp (hostMachine host) A (Passed L A trial w False)
      (UpdateWatchdog.report event fromVersion toVersion reason >>= k) Q v :=
  wp_report hv.not_ended hk

/-- The rule of a rollback of the trial, wherever in a task it stands. -/
theorem wp_rollback_passed {k : Unit → SysM β α} (hw : Entered L w) (hw₁ : w.SameFiles w₁)
    (hdir : wd.stateDir = L.stateDir) (hm : wd.marker.Named)
    (ht : trial = some (wd.marker, reason))
    (hk : ∀ v, Passed L A trial w True v →
      cwp (hostMachine host) A (Passed L A trial w False) (k ()) Q v)
    (hthrow : ∀ e v, Passed L A trial w True v → Q (.error e) v) :
    cwp (hostMachine host) A (Passed L A trial w False) (wd.rollback reason >>= k) Q w₁ := by
  refine wp_flags_passed rfl hw hw₁ fun _ w₂ hw₂ => wp_flags_passed rfl hw hw₂ fun _ w₃ hw₃ => ?_
  show cwp _ A _ ((doRollback wd.stateDir wd.marker reason >>= fun restored =>
    if restored then raiseSigterm else .ret ()) >>= k) Q w₃
  rw [hdir, Prog.bind_assoc]
  refine wp_doRollback_passed hw hw₃ hm ht (fun b v hv => ?_) fun hv => hthrow _ _ hv
  cases b with
  | true => exact ⟨hv.not_ended, fun _ _ => hk v hv⟩
  | false => exact hk v hv

/-- The rule of a confirmation, which leaves the record alone. -/
theorem wp_confirm_passed {k : Unit → SysM β α} (hw : Entered L w) (hw₁ : w.SameFiles w₁)
    (hdir : wd.stateDir = L.stateDir) (hm : wd.marker.Named)
    (hk : ∀ v, Passed L A trial w True v →
      cwp (hostMachine host) A (Passed L A trial w False) (k ()) Q v) :
    cwp (hostMachine host) A (Passed L A trial w False) (wd.confirm >>= k) Q w₁ := by
  refine wp_flags_passed rfl hw hw₁ fun _ w₂ hw₂ => wp_flags_passed rfl hw hw₂ fun _ w₃ hw₃ => ?_
  have hpath : wd.markerPath = L.path .state := by
    rw [UpdateWatchdog.markerPath, hdir, L.stateFile_stateDir]
  rw [hpath]
  refine wp_clear_passed hw hw₃ hm fun v hv => ?_
  exact wp_report_passed hv (hk v hv)

/-- The rule of the report of a rollback, which leaves the record alone. -/
theorem wp_reportRolledBack_passed {k : Unit → SysM β α} (hw : Entered L w)
    (hw₁ : w.SameFiles w₁) (hdir : wd.stateDir = L.stateDir)
    (hk : ∀ v, Passed L A trial w True v →
      cwp (hostMachine host) A (Passed L A trial w False) (k ()) Q v)
    (hthrow : ∀ e v, Passed L A trial w True v → Q (.error e) v) :
    cwp (hostMachine host) A (Passed L A trial w False) (wd.reportRolledBack >>= k) Q w₁ := by
  refine wp_flags_passed rfl hw hw₁ fun _ w₂ hw₂ => ?_
  have h₂ {ended : Prop} : Passed L A trial w ended w₂ := .of_sameFiles hw hw₂
  show cwp _ A _ ((lastReverted wd.stateDir >>= fun rv => _) >>= k) Q w₂
  rw [Prog.bind_assoc]
  refine wp_lastReverted h₂ (fun _ rv => ?_) fun _ _ => hthrow _ _ h₂
  rw [Prog.bind_assoc]
  refine wp_report_passed h₂ ?_
  rw [UpdateWatchdog.markerPath, hdir, L.stateFile_stateDir]
  refine wp_removeQuiet h₂ fun v hs hgone => hk v ?_
  refine .of_scratch hw hw₂ hs (by simp) (by simp) fun _ m hm => ?_
  rcases hgone with hgone | ⟨-, rfl⟩
  · rw [World.marker_of_none hgone] at hm
    cases hm
  · exact (hw.sameFiles hw₂).marker m hm

/-- An event of the watchdog records the rollback of its trial after a refused login, and nothing
else. -/
theorem event_passed {state : ClientState} {reason : String} (hw : Entered L w)
    (hdir : wd.stateDir = L.stateDir) (hm : wd.marker.Named) : cwp (hostMachine host) A
      (Passed L A (some (wd.marker, "auth_failed")) w False)
      (wd.onState state reason >>= fun wd => .ret (some wd))
      (TaskEnds L A (some (wd.marker, "auth_failed")) w) w := by
  have h₀ {ended : Prop} : Passed L A (some (wd.marker, "auth_failed")) w ended w :=
    .of_sameFiles hw (.refl w)
  have ended {wd' : UpdateWatchdog} {v : World β}
      (hv : Passed L A (some (wd.marker, "auth_failed")) w True v)
      (hdir : wd'.stateDir = L.stateDir) (hm : wd'.marker.Named) :
      cwp (hostMachine host) A (Passed L A (some (wd.marker, "auth_failed")) w False)
        (.ret (some wd')) (TaskEnds L A (some (wd.marker, "auth_failed")) w) v := by
    refine ⟨hv.not_ended, hv, ?_⟩
    rintro _ ⟨rfl⟩
    exact ⟨hdir, hm⟩
  have lost {v : World β} (hv : w.SameFiles v) := ended (.of_sameFiles hw hv) hdir hm
  have thrown (e : Exc) (v : World β)
      (hv : Passed L A (some (wd.marker, "auth_failed")) w True v) :
      TaskEnds L A (some (wd.marker, "auth_failed")) w (.error e) v := ⟨hv, by simp⟩
  rw [UpdateWatchdog.onState_eq]
  -- Each way through it begins with the claim.
  split
  · split
    · refine wp_flags_passed rfl hw (.refl w) fun free v hv => ?_
      cases free with
      | false => exact lost hv
      | true =>
        show cwp _ A _ ((wd.reportRolledBack >>= fun _ => _) >>= fun wd => _) _ v
        rw [Prog.bind_assoc]
        exact wp_reportRolledBack_passed hw hv hdir (fun v' h => ended h hdir hm) thrown
    · split
      · refine wp_flags_passed rfl hw (.refl w) fun free v hv => ?_
        cases free with
        | false => exact lost hv
        | true =>
          show cwp _ A _ ((wd.confirm >>= fun _ => _) >>= fun wd => _) _ v
          rw [Prog.bind_assoc]
          exact wp_confirm_passed hw hv hdir hm fun v' h => ended h hdir hm
      · exact lost (.refl w)
  · split
    · refine wp_flags_passed rfl hw (.refl w) fun free v hv => ?_
      cases free with
      | false => exact lost hv
      | true =>
        show cwp _ A _ ((wd.rollback "auth_failed" >>= fun _ => _) >>= fun wd => _) _ v
        rw [Prog.bind_assoc]
        exact wp_rollback_passed hw hv hdir hm rfl (fun v' h => ended h hdir hm) thrown
    · exact lost (.refl w)

/-- The deadline thread records the rollback of its trial, and nothing else. -/
theorem deadline_passed (hw : Entered L w) (hdir : wd.stateDir = L.stateDir)
    (hm : wd.marker.Named) : cwp (hostMachine host) A
      (Passed L A (some (wd.marker, "deadline")) w False)
      (do if wd.armed then wd.deadlineLoop
          return none)
      (TaskEnds L A (some (wd.marker, "deadline")) w) w := by
  have ended {v : World β} (hv : Passed L A (some (wd.marker, "deadline")) w True v) :
      cwp (hostMachine host) A (Passed L A (some (wd.marker, "deadline")) w False)
        (.ret none) (TaskEnds L A (some (wd.marker, "deadline")) w) v :=
    ⟨hv.not_ended, hv, by simp⟩
  split
  · refine wp_flags_passed rfl hw (.refl w) fun stop v hv => ?_
    cases stop with
    | true => exact ended (.of_sameFiles hw hv)
    | false =>
      refine wp_flags_passed rfl hw hv fun free v' hv' => ?_
      cases free with
      | false => exact ended (.of_sameFiles hw hv')
      | true =>
        show cwp _ A _ (wd.rollback "deadline" >>= fun _ => .ret none) _ v'
        exact wp_rollback_passed hw hv' hdir hm rfl (fun _ h => ended h) fun e _ h => ⟨h, by simp⟩
  · exact ended (.of_sameFiles hw (.refl w))

/-- What a task does to the records, one lemma for each. -/
theorem task_passed {cast : Json.FloatCast} {f : Fractions} {task : Task} (hw : Entered L w)
    (hwd : ∀ wd, task.watchdog? = some wd → wd.stateDir = L.stateDir ∧ wd.marker.Named) :
    cwp (hostMachine host) A (Passed L A (task.trial L.stateDir w) w False)
      (task.prog host cast f L.stateDir) (TaskEnds L A (task.trial L.stateDir w) w) w := by
  cases task with
  | poll build p user => exact poll_passed hw
  | apply build req => exact apply_passed hw
  | boot version => exact boot_passed hw
  | event wd state reason => exact event_passed hw (hwd wd rfl).1 (hwd wd rfl).2
  | deadline wd => exact deadline_passed hw (hwd wd rfl).1 (hwd wd rfl).2

end Tasks

end ThinrAgent
