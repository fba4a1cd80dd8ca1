import ThinrAgent.Proofs.CrashLoop
import ThinrAgent.Proofs.Device

/-!
# `ThinrAgent.Proofs.Recoverability`: the known-good binary is never lost

The invariant of the files over every process of a device (`Layout.Recoverable`): the known-good
binary is installed and no marker would put it on trial, or another binary is installed, its
pending marker is there and the backup holds the known-good one. `Layout.Alive` adds what a
process between two activities knows. Every activity keeps both, wherever it stops and whatever
fails in it, with one exception: a confirmation that cannot remove the marker leaves a confirmed
binary on trial (`recoverable_run`, `not_recoverable_sample`).
-/

set_option autoImplicit false

namespace ThinrAgent

open Effects

/-! ### The assertions -/

namespace Layout

variable {β : Type} (host : Host β) (L : Layout)

/-- The binary `good` is installed, and a pending marker is not for its version. -/
structure Good (good : β) (w : World β) : Prop where
  install : w.files (L.path .install) = some (.image good)
  state : w.files (L.path .state) = none ∨ ∃ m : UpdateMarker,
    w.files (L.path .state) = some (.json m.toJson) ∧ m.prevBinary = L.path .prev ∧
      (m.phase = .pending → m.toVersion ≠ host.reportedVersion good)

/-- The binary `new` is installed on trial with the marker `m`, and the backup is `good`. -/
structure Trial (good new : β) (m : UpdateMarker) (w : World β) : Prop where
  install : w.files (L.path .install) = some (.image new)
  state : w.files (L.path .state) = some (.json m.toJson)
  prev : w.files (L.path .prev) = some (.image good)
  pending : m.phase = .pending
  version : m.toVersion = host.reportedVersion new
  differs : host.reportedVersion new ≠ host.reportedVersion good
  backup : m.prevBinary = L.path .prev

/-- What holds of the files at any time: the good binary is installed and stays so, or another one
is on trial with the good one as its backup. -/
inductive Recoverable (good : β) (w : World β) : Prop where
  | good (h : L.Good host good w)
  | trial (new : β) (m : UpdateMarker) (h : L.Trial host good new m w)

/-- What holds between two activities of a process that runs `img`. -/
structure Alive (good img : β) (wd : UpdateWatchdog) (w : World β) : Prop where
  disk : L.Recoverable host good w
  stateDir : wd.stateDir = L.stateDir
  absent : w.files (L.path .state) = none →
    w.files (L.path .install) = some (.image img) ∧ w.proc.exe = some (L.path .install)
  armed : wd.armed = true → w.proc.resolved = false → w.proc.exe = some (L.path .install) ∧
    wd.marker.prevBinary = L.path .prev ∧ ∃ m, L.Trial host good img m w
  report : wd.reportPending = true → w.proc.resolved = false →
    w.proc.exe = some (L.path .install) ∧ w.files (L.path .install) = some (.image img) ∧
      ∃ m : UpdateMarker, w.files (L.path .state) = some (.json m.toJson) ∧ m.phase = .rolledBack

variable {host L} {good new img : β} {m : UpdateMarker} {w w' : World β} {wd : UpdateWatchdog}

/-- A trial is never of the good binary. -/
theorem Trial.ne (h : L.Trial host good new m w) : w.image (L.path .install) ≠ some good := by
  rw [World.image_of_files h.install]
  rintro ⟨rfl⟩
  exact h.differs rfl

/-- A known-good binary stays one when it is still installed and no marker has appeared. A marker
that has been removed does not harm it. -/
theorem Good.congr (h : L.Good host good w)
    (hinstall : w'.files (L.path .install) = w.files (L.path .install))
    (hstate : w'.files (L.path .state) = w.files (L.path .state) ∨
      w'.files (L.path .state) = none) : L.Good host good w' := by
  refine ⟨hinstall.trans h.install, ?_⟩
  rcases hstate with hstate | hstate
  · rw [hstate]
    exact h.state
  · exact .inl hstate

/-- A trial goes on while the binary, the marker and the backup are what they were. -/
theorem Trial.congr (h : L.Trial host good new m w)
    (hinstall : w'.files (L.path .install) = w.files (L.path .install))
    (hstate : w'.files (L.path .state) = w.files (L.path .state))
    (hprev : w'.files (L.path .prev) = w.files (L.path .prev)) : L.Trial host good new m w' :=
  ⟨hinstall.trans h.install, hstate.trans h.state, hprev.trans h.prev, h.pending, h.version,
    h.differs, h.backup⟩

/-- Only the files matter for what is recoverable, and not what a process holds in memory. -/
theorem Recoverable.congr (h : L.Recoverable host good w) (hfiles : w'.files = w.files) :
    L.Recoverable host good w' := by
  cases h with
  | good h => exact .good (h.congr (by rw [hfiles]) (.inl (by rw [hfiles])))
  | trial new m h => exact .trial new m (h.congr (by rw [hfiles]) (by rw [hfiles]) (by rw [hfiles]))

/-- Without a marker the good binary is installed. -/
theorem Recoverable.good_of_absent (h : L.Recoverable host good w)
    (habsent : w.files (L.path .state) = none) : L.Good host good w := by
  cases h with
  | good h => exact h
  | trial new m h => simp [h.state] at habsent

/-- A pending marker for the installed binary means a trial. -/
theorem Recoverable.trial_of_pending (h : L.Recoverable host good w)
    (hinstall : w.files (L.path .install) = some (.image new))
    (hmarker : w.marker L.stateDir = some m) (hp : m.phase = .pending)
    (hv : host.reportedVersion new = m.toVersion) : L.Trial host good new m w := by
  cases h with
  | good h =>
    have hne := h.install.symm.trans hinstall
    cases hne
    rcases h.state with hnone | ⟨m', hstate, -, hne⟩
    · rw [World.marker_of_none hnone] at hmarker
      cases hmarker
    · rw [World.marker_of_files hstate] at hmarker
      cases hmarker
      exact absurd hv.symm (hne hp)
  | trial n m' h =>
    have hn := h.install.symm.trans hinstall
    cases hn
    rw [World.marker_of_files h.state] at hmarker
    cases hmarker
    exact h

/-- A start that decides to roll back finds a trial. -/
theorem Recoverable.trial_of_rollback (h : L.Recoverable host good w)
    (hinstall : w.files (L.path .install) = some (.image new))
    (hrevert : (L.bootDecision (host.reportedVersion new) w).action = .rollback) :
    ∃ m, (L.bootDecision (host.reportedVersion new) w).marker = m.counted ∧
      L.Trial host good new m w := by
  unfold bootDecision at hrevert ⊢
  cases hmarker : w.marker L.stateDir with
  | none => simp [hmarker, decideBoot] at hrevert
  | some m =>
    rw [hmarker] at hrevert
    obtain ⟨hp, hv, hd⟩ := decideBoot_action_eq_rollback hrevert
    exact ⟨m, by rw [hd], h.trial_of_pending hinstall hmarker hp hv⟩

/-- A marker found is the one in the file. -/
theorem Recoverable.file_of_marker (h : L.Recoverable host good w)
    (hmarker : w.marker L.stateDir = some m) :
    w.files (L.path .state) = some (.json m.toJson) ∧ m.prevBinary = L.path .prev := by
  cases h with
  | good h =>
    rcases h.state with hnone | ⟨m', hstate, hprev, -⟩
    · rw [World.marker_of_none hnone] at hmarker
      cases hmarker
    · rw [World.marker_of_files hstate] at hmarker
      cases hmarker
      exact ⟨hstate, hprev⟩
  | trial n m' h =>
    rw [World.marker_of_files h.state] at hmarker
    cases hmarker
    exact ⟨h.state, h.backup⟩

/-- While a rollback is recorded, the good binary is back and the marker is not for it. -/
theorem Trial.good_of_recording {m' : UpdateMarker} {reason : String}
    (h : L.Trial host good new m w) (hprev : m'.prevBinary = L.path .prev)
    (hrec : L.Recording m' reason (w.rename (L.path .prev) (L.path .install)) w') :
    L.Good host good w' ∧ w'.files (L.path .state) ≠ none := by
  have hinstall := ((restoresInstalled_of_recording hrec).mpr (.inl rfl)).1.trans h.prev
  have hmove : (w.rename (L.path .prev) (L.path .install)).files (L.path .state)
      = some (.json m.toJson) := by
    rw [World.rename, if_neg (by simp), (World.Scratch.move w _ _).files (by simp), h.state]
  rcases hrec.state with ⟨hstate, -⟩ | ⟨hstate, -⟩
  · rw [hmove] at hstate
    refine ⟨⟨hinstall, .inr ⟨m, hstate, h.backup, fun _ => ?_⟩⟩, by simp [hstate]⟩
    rw [h.version]
    exact h.differs
  · exact ⟨⟨hinstall, .inr ⟨m'.done, hstate, hprev, by simp [UpdateMarker.done]⟩⟩, by simp [hstate]⟩

end Layout

/-! ### The start-up -/

section StartUp

variable {β : Type} {host : Host β} {L : Layout} {A : SysOp β → Choice β → Prop} {good img : β}
  {w w' : World β} {marker : Option UpdateMarker}

/-- A start of the installed binary keeps the files recoverable. -/
theorem recoverable_of_booting (h : L.Recoverable host good w)
    (hinstall : w.files (L.path .install) = some (.image img))
    (hexe : w.proc.binaryPath = L.path .install)
    (hb : L.Booting (host.reportedVersion img) w w') : L.Recoverable host good w' := by
  cases hb with
  | untouched hs => exact h.congr (funext fun p => hs.files List.not_mem_nil)
  | clearing hclear hs hstate =>
    -- The marker is for another version, so this is no trial.
    cases h with
    | trial new m h =>
      have hn := h.install.symm.trans hinstall
      cases hn
      rw [Layout.bootDecision, World.marker_of_files h.state] at hclear
      rcases decideBoot_pending (host.reportedVersion img) h.pending with hd | hd | hd
      · exact absurd h.version.symm hd.2.2
      · rw [hd.1] at hclear
        cases hclear
      · rw [hd.1] at hclear
        cases hclear
    | good h =>
      refine .good (h.congr (hs.files ?_) hstate)
      rcases h.state with hnone | ⟨m, hfile, hprev, -⟩
      · rw [Layout.bootDecision, World.marker_of_none hnone] at hclear
        cases hclear
      · rw [Layout.bootDecision, World.marker_of_files hfile]
        have hmarker : (decideBoot (some m) (host.reportedVersion img)).marker = m := by
          rw [Layout.bootDecision, World.marker_of_files hfile] at hclear
          exact decideBoot_marker_of_clear hclear
        simp [hmarker, hprev]
  | arming harm hs hstate =>
    obtain ⟨m, hmarker⟩ : ∃ m, w.marker L.stateDir = some m := by
      cases hm : w.marker L.stateDir with
      | none => simp [Layout.bootDecision, hm, decideBoot] at harm
      | some m => exact ⟨m, rfl⟩
    rw [Layout.bootDecision, hmarker] at harm hstate
    obtain ⟨hp, hv, hbudget⟩ := decideBoot_action_eq_arm.mp harm
    rw [decideBoot_arm hp hv hbudget] at hstate
    have htrial := h.trial_of_pending hinstall hmarker hp hv
    have hinstall' := hs.files (q := L.path .install) (by simp)
    have hprev' := hs.files (q := L.path .prev) (by simp)
    rcases hstate with hstate | hstate
    · exact .trial img m (htrial.congr hinstall' hstate hprev')
    · exact .trial img m.counted ⟨hinstall'.trans htrial.install, hstate, hprev'.trans htrial.prev,
        hp, htrial.version, htrial.differs, htrial.backup⟩
  | reverting hrevert hbackup hrec =>
    obtain ⟨m, hmarker, htrial⟩ := h.trial_of_rollback hinstall hrevert
    have hprev : m.counted.prevBinary = L.path .prev := htrial.backup
    rw [hmarker, hexe, hprev] at hrec
    exact .good (htrial.good_of_recording hprev hrec).1

/-- A boot that goes on has not touched the installed binary. -/
theorem exists_scratch_of_booting (h : L.Recoverable host good w)
    (hb : L.Booting (host.reportedVersion img) w w')
    (hkept : (L.bootDecision (host.reportedVersion img) w).action = .rollback →
      World.Scratch [] w w') : ∃ X, L.path .install ∉ X ∧ World.Scratch X w w' := by
  cases hb with
  | untouched hs => exact ⟨_, List.not_mem_nil, hs⟩
  | clearing hclear hs =>
    refine ⟨_, ?_, hs⟩
    cases hm : w.marker L.stateDir with
    | none => simp [Layout.bootDecision, hm, decideBoot] at hclear
    | some m =>
      rw [Layout.bootDecision, hm] at hclear ⊢
      rw [decideBoot_marker_of_clear hclear, (h.file_of_marker hm).2]
      simp
  | arming harm hs => exact ⟨_, by simp, hs⟩
  | reverting hrevert => exact ⟨_, List.not_mem_nil, hkept hrevert⟩

/-- A watchdog created over recoverable files, by a process that runs the installed binary. -/
theorem alive_ofMarker (h : L.Recoverable host good w)
    (hinstall : w.files (L.path .install) = some (.image img))
    (hexe : w.proc.exe = some (L.path .install))
    (hm : marker = w.marker L.stateDir ∨ marker = none) :
    L.Alive host good img
      (UpdateWatchdog.ofMarker L.stateDir (host.reportedVersion img) marker) w := by
  refine ⟨h, UpdateWatchdog.stateDir_ofMarker .., fun _ => ⟨hinstall, hexe⟩, fun harmed _ => ?_,
    fun hreport _ => ?_⟩
  · obtain ⟨m, rfl, hp, hv⟩ := UpdateWatchdog.armed_ofMarker.mp harmed
    have hmarker := (hm.resolve_right (by simp)).symm
    refine ⟨hexe, ?_, m, h.trial_of_pending hinstall hmarker hp hv⟩
    rw [UpdateWatchdog.marker_ofMarker]
    exact (h.file_of_marker hmarker).2
  · obtain ⟨m, rfl, hp⟩ := UpdateWatchdog.reportPending_ofMarker hreport
    have hmarker := (hm.resolve_right (by simp)).symm
    exact ⟨hexe, hinstall, m, (h.file_of_marker hmarker).1, hp⟩

/-- The start-up keeps the files recoverable, and leaves a watchdog that knows what it needs. -/
theorem startUp_spec (h : L.Recoverable host good w)
    (hinstall : w.files (L.path .install) = some (.image img))
    (hexe : w.proc.exe = some (L.path .install)) :
    cwp (hostMachine host) A (L.Recoverable host good)
      (startUp L.stateDir (host.reportedVersion img))
      (fun r w' => ∀ wd, r = .ok wd → L.Alive host good img wd w') w := by
  have hpath : w.proc.binaryPath = L.path .install := by rw [Process.binaryPath, hexe]; rfl
  unfold startUp
  refine cwp_bind (cwp_mono checkBoot_spec
    (fun v hb => recoverable_of_booting h hinstall hpath hb) fun r v hb hend => ?_)
  cases r with
  | error e => simp
  | ok outcome =>
    cases outcome with
    | revertedExit => exact ⟨recoverable_of_booting h hinstall hpath hb, by simp⟩
    | proceed =>
      have hv := recoverable_of_booting h hinstall hpath hb
      -- A start that goes on has not touched the installed binary.
      obtain ⟨X, hX, hs⟩ := exists_scratch_of_booting h hb (hend.proceeded rfl)
      refine cwp_mono create_spec (fun v' hv' => hv' ▸ hv) ?_
      rintro r v' - ⟨rfl, hwd⟩ wd rfl
      have halive {marker : Option UpdateMarker}
          (hm : marker = v'.marker L.stateDir ∨ marker = none) := alive_ofMarker hv
        ((hs.files hX).trans hinstall)
        ((hs.exe fun p hp hpe => hX (Option.some.inj (hexe.symm.trans hpe) ▸ hp)).trans hexe) hm
      rcases hwd wd rfl with rfl | ⟨-, rfl⟩
      · exact halive (.inl rfl)
      · exact halive (.inr rfl)

end StartUp

/-! ### From the world to what is tracked -/

section Tracked

variable {β : Type} (host : Host β) (L : Layout)

/-- A restoring rename does not put the backup over the binary `good`. -/
def SparesGood (good : β) (w : World β) (o : SysOp β) : Prop :=
  ∀ dst, o = .rename (L.path .prev) dst → w.image dst ≠ some good

/-- The three assertions of a device whose confirmations have removed the marker. -/
def DiskOk (t : Tracked β) : Prop := t.lost = false → L.Recoverable host t.good t.world

/-- What a process between two activities keeps: unless the known-good binary is given up for lost,
the assertion `Alive` holds of its world. -/
def IdleOk (img : β) (wd : UpdateWatchdog) (t : Tracked β) : Prop :=
  t.lost = false → L.Alive host t.good img wd t.world

/-- What an operation must not do: rename something over the known-good binary while no backup has
it. It is asked before each operation. -/
def SparesOk (t : Tracked β) (o : SysOp β) : Prop :=
  t.lost = false → SparesGood L t.good t.world o

variable {host L} {img : β} {a : Option Activity} {p : SysM β UpdateWatchdog} {t : Tracked β}

/-- Nothing is claimed once a confirmation was lost. -/
theorem proceeds_of_lost (h : t.lost = true) :
    Proceeds host L (DiskOk host L) (IdleOk host L) (SparesOk L) img a p t := by
  have hno {P : Prop} {t : Tracked β} (h : t.lost = true) : t.lost = false → P := fun h' => by
    rw [h] at h'
    cases h'
  have hexec {t : Tracked β} (h : t.lost = true) (o : SysOp β) (c : Choice β) :
      ((trackedMachine host L img).exec t o c).2.lost = true := by
    simp [trackedMachine, h]
  constructor
  · induction p generalizing t with
    | ret wd => exact ⟨hno h, fun _ _ => hno h⟩
    | throw e => exact ⟨hno h, fun _ _ => hno h⟩
    | call o k ih => exact ⟨hno h, fun c _ => ih _ (hexec h o c)⟩
  · induction p generalizing t with
    | ret wd => trivial
    | throw e => trivial
    | call o k ih => exact ⟨hno h, fun c _ => ih _ (hexec h o c)⟩

/-- A program that confirms nothing proceeds, by its specification on the world alone. -/
theorem proceeds_of_world (hops : AllOps (Untracked L t.confirming) p)
    (hcwp : cwp (hostMachine host) (Activity.Answers host a) (L.Recoverable host t.good) p
      (fun r w => ∀ wd, r = .ok wd → L.Alive host t.good img wd w) t.world)
    (hguards : guards (hostMachine host) (Activity.Answers host a) (SparesGood L t.good) p
      t.world) :
    Proceeds host L (DiskOk host L) (IdleOk host L) (SparesOk L) img a p t := by
  constructor
  · refine cwp_mono (cwp_tracked hops hcwp) ?_ ?_
    · rintro _ ⟨w, rfl, hw⟩ -
      exact hw
    · rintro r _ - ⟨w, rfl, hr⟩ wd hwd -
      exact hr wd hwd
  · refine guards_mono (guards_tracked hops hguards) ?_
    rintro t' o ⟨hgood, ho⟩ -
    rw [hgood]
    exact ho

end Tracked

/-! ### The restoring rename -/

section Guards

variable {β α : Type} {host : Host β} {L : Layout} {A : SysOp β → Choice β → Prop} {good img : β}
  {w : World β}

/-- The operations that neither confirm nor restore a backup. -/
def Plain (L : Layout) (o : SysOp β) : Prop :=
  o.entersConfirm = false ∧ ∀ dst, o ≠ .rename (L.path .prev) dst

/-- Operations that are plain spare the known-good binary, as they rename nothing onto the installed
one. -/
theorem guards_of_plain {p : SysM β α} (h : AllOps (Plain L) p) :
    guards (hostMachine host) A (SparesGood L good) p w :=
  guards_of_allOps (fun _ ho _ dst hdst => absurd hdst (ho.2 dst)) h w

/-- Plain operations leave what is tracked of a device alone. -/
theorem untracked_of_plain {p : SysM β α} (h : AllOps (Plain L) p) :
    AllOps (Untracked L false) p := h.mono fun _ ho => ⟨ho.1, by simp⟩

/-- A path with another last character than a backup is no backup. -/
private theorem plain_rename {src dst : Path} (h : lastChar src ≠ some 'v') :
    Plain L (.rename src dst : SysOp β) := by
  refine ⟨rfl, fun dst' heq => h ?_⟩
  cases heq
  exact lastChar_append _ (by decide)

/-- An atomic write of a record renames its temporary file onto the record, and nothing onto the
binary. -/
private theorem plain_of_atomicOp {path : Path} {o : SysOp β} (h : AtomicOp path o) :
    Plain L o := by
  cases h with
  | rename pid =>
    obtain ⟨c, hc, hdigit⟩ := lastChar_tempPath path pid
    refine plain_rename ?_
    rw [hc]
    rintro ⟨rfl⟩
    exact absurd hdigit (by decide)
  | _ => exact ⟨rfl, by simp⟩

/-- The whole write of a record is plain. -/
theorem plain_writeAtomic {path : Path} {content : Content β} {mode : Nat} :
    AllOps (Plain L) (writeAtomic path content mode) :=
  writeAtomic_ops.mono fun _ h => plain_of_atomicOp h

/-- To ask for the path of the binary is plain. -/
private theorem plain_getCurrentBinaryPath : AllOps (Plain (β := β) L) getCurrentBinaryPath := by
  refine .bind (.single ⟨rfl, by simp⟩) fun link => ?_
  cases link <;> trivial

/-- An update confirms nothing and restores nothing, by its operations. -/
theorem plain_applyWithWatchdog {build : Build} {req : ApplyRequest} :
    AllOps (Plain L) (applyWithWatchdog host build req) := by
  refine applyWithWatchdog_ops.mono fun o ho => ?_
  cases ho with
  | swapping h =>
    cases h with
    | mark install startedAt h hc => exact plain_of_atomicOp h
    | stage install =>
      refine plain_rename ?_
      rw [prevTmpPath, lastChar_append _ (by decide)]
      decide
    | swap install =>
      refine plain_rename ?_
      rw [newPath, lastChar_append _ (by decide)]
      decide
    | _ => exact ⟨rfl, by simp⟩
  | _ => exact ⟨rfl, by simp⟩

/-- A rollback by a process whose executable is not the good binary. -/
theorem guards_doRollback {m : UpdateMarker} {reason : String}
    (h : w.image w.proc.binaryPath ≠ some good) :
    guards (hostMachine host) A (SparesGood L good) (doRollback L.stateDir m reason) w := by
  -- After the rename the rollback only records.
  have record : AllOps (Plain (β := β) L) (do
      fsyncDir (parentPath w.proc.binaryPath)
      let at_ ← time
      let _ ← writeAtomic (revertedFile L.stateDir) (.json (m.reverted reason at_).toJson) 0o644
      let _ ← writeAtomic (stateFile L.stateDir) (.json m.done.toJson) 0o644
      return true) :=
    .bind (.single ⟨rfl, by simp⟩) fun _ => .bind (.single ⟨rfl, by simp⟩) fun at_ =>
      .bind plain_writeAtomic fun _ => .bind plain_writeAtomic fun _ => trivial
  unfold doRollback
  refine guards_bind (J := fun _ => True) (guards_of_plain plain_getCurrentBinaryPath) ?_
  rw [← Prog.bind_ret getCurrentBinaryPath]
  refine wp_getCurrentBinaryPath trivial ⟨trivial, ?_⟩
  rintro _ ⟨rfl⟩
  split
  · trivial
  refine ⟨fun _ h => (nomatch h), fun c _ => ?_⟩
  show guards _ A _ (orThrow (exec host w (.exists m.prevBinary) c).1 >>= _) w
  cases (exec host w (.exists m.prevBinary) c).1 with
  | none => trivial
  | some found =>
    cases found with
    | false => trivial
    | true =>
      simp only [orThrow, Prog.ret_bind, Bool.not_true, Bool.false_eq_true, if_false]
      refine ⟨fun dst hdst => ?_, fun c _ => ?_⟩
      -- The one rename goes over the executable of the process.
      · obtain ⟨-, rfl⟩ := SysOp.rename.inj hdst
        exact h
      · exact guards_of_plain (.ite (fun _ => trivial) fun _ => record)

/-- To read the marker is plain: nothing is confirmed and nothing restored. -/
private theorem plain_readMarkerFile {path : Path} :
    AllOps (Plain (β := β) L) (readMarkerFile path) := by
  refine .bind (.single ⟨rfl, by simp⟩) fun content => ?_
  cases content with
  | none => trivial
  | some content => exact allOps_parseRecord

/-- To remove a file is plain as far as the renames go. -/
private theorem plain_removeQuiet {path : Path} : AllOps (Plain (β := β) L) (removeQuiet path) :=
  .bind (.single ⟨rfl, by simp⟩) fun _ => trivial

/-- The constructor of the watchdog is plain: it reads the marker, and may remove it. -/
private theorem plain_create {stateDir : Path} {version : String} :
    AllOps (Plain (β := β) L) (UpdateWatchdog.create stateDir version) :=
  .bind plain_readMarkerFile fun _ => trivial

/-- A start-up restores over a binary on trial only. -/
theorem guards_startUp (h : L.Recoverable host good w)
    (hinstall : w.files (L.path .install) = some (.image img))
    (hexe : w.proc.binaryPath = L.path .install) :
    guards (hostMachine host) A (SparesGood L good)
      (startUp L.stateDir (host.reportedVersion img)) w := by
  -- Of the five decisions only the rollback restores, and it restores over a binary on trial.
  have hact {marker : Option UpdateMarker} (hm : marker = w.marker L.stateDir ∨ marker = none) :
      guards (hostMachine host) A (SparesGood L good)
        (actOnBoot L.stateDir (decideBoot marker (host.reportedVersion img))) w := by
    unfold actOnBoot
    split
    case h_1 => trivial
    case h_2 =>
      refine guards_of_plain (.bind plain_removeQuiet fun _ => .ite (fun _ => ?_) fun _ => trivial)
      exact .bind plain_removeQuiet fun _ => trivial
    case h_3 => trivial
    case h_4 => exact guards_of_plain (.bind plain_writeAtomic fun _ => trivial)
    case h_5 hd =>
      refine guards_then (guards_doRollback ?_) fun restored v => ?_
      · rcases hm with rfl | rfl
        · obtain ⟨m, -, htrial⟩ := h.trial_of_rollback hinstall hd
          rw [hexe]
          exact htrial.ne
        · simp [decideBoot] at hd
      · split <;> trivial
  unfold startUp checkBoot
  refine guards_then (guards_bind (J := fun _ => True) (guards_of_plain plain_readMarkerFile) ?_)
    fun outcome v => ?_
  -- The decision is about the marker, or about none when the read fails.
  · rw [← Prog.bind_ret (readMarkerFile _)]
    refine wp_readMarkerFile trivial ⟨trivial, ?_⟩ (fun _ => ⟨trivial, ?_⟩) (by simp)
    · rintro _ ⟨rfl⟩
      exact hact (.inl rfl)
    · rintro _ ⟨rfl⟩
      exact hact (.inr rfl)
  · cases outcome with
    | revertedExit => trivial
    | proceed => exact guards_of_plain plain_create

/-- The operations of a rollback are ones that the tracked state does not follow, as nothing is
confirmed. -/
theorem untracked_doRollback {dir : Path} {m : UpdateMarker} {reason : String} :
    AllOps (Untracked L false) (doRollback dir m reason : SysM β Bool) := by
  have hops : AllOps (KeepsMarker dir) (doRollback dir m reason : SysM β Bool) := allOps_doRollback
  refine hops.mono fun o ho => ⟨?_, by simp⟩
  cases o with
  | enter r => cases ho.1
  | _ => rfl

/-- A start of the agent changes nothing of what is tracked besides the world. Whether a binary is
good is decided later, by a confirmation. -/
theorem untracked_startUp {dir : Path} {version : String} :
    AllOps (Untracked (β := β) L false) (startUp dir version) := by
  unfold startUp checkBoot
  refine .bind (.bind (untracked_of_plain plain_readMarkerFile) fun marker => ?_) fun outcome => ?_
  · unfold actOnBoot
    split
    case h_1 => trivial
    case h_2 =>
      refine untracked_of_plain (.bind plain_removeQuiet fun _ => ?_)
      exact .ite (fun _ => .bind plain_removeQuiet fun _ => trivial) fun _ => trivial
    case h_3 => trivial
    case h_4 => exact untracked_of_plain (.bind plain_writeAtomic fun _ => trivial)
    case h_5 => exact .bind untracked_doRollback fun _ => .ite (fun _ => trivial) fun _ => trivial
  · cases outcome with
    | revertedExit => trivial
    | proceed => exact untracked_of_plain plain_create

end Guards

/-! ### The activities -/

section Activities

variable {β : Type} {host : Host β} {L : Layout} {A : SysOp β → Choice β → Prop} {good img : β}
  {w w' : World β} {wd wd' : UpdateWatchdog}

/-- With the resolution claimed, only the files matter. -/
theorem alive_of_resolved (h : L.Recoverable host good w) (hdir : wd.stateDir = L.stateDir)
    (habsent : w.files (L.path .state) = none →
      w.files (L.path .install) = some (.image img) ∧ w.proc.exe = some (L.path .install))
    (hres : w.proc.resolved = true) : L.Alive host good img wd w :=
  ⟨h, hdir, habsent, fun _ hno => by simp [hres] at hno, fun _ hno => by simp [hres] at hno⟩

/-- A claim of the resolution, and nothing else, has happened since: the process is alive as
before. -/
theorem Layout.Alive.claimed (h : L.Alive host good img wd w) (hs : w.SameFiles w')
    (hres : w'.proc.resolved = true) (hdir : wd'.stateDir = wd.stateDir) :
    L.Alive host good img wd' w' := by
  obtain ⟨r, d, rfl⟩ := hs
  exact alive_of_resolved (h.disk.congr rfl) (hdir.trans h.stateDir) h.absent hres

/-- An update keeps what is known, at its end and on the way. -/
theorem Layout.Alive.reached {build : Build} (req : ApplyRequest)
    (h : L.Alive host good img wd w) (hfits : req.version ≠ host.reportedVersion img)
    (hA : ∀ b, Delivers A req.url (L.path .new) b → host.reportedVersion b = req.version)
    (hr : L.Reached build req host A w w') : L.Alive host good img wd w' := by
  -- A watchdog with something to do has a marker.
  have hidle (habsent : w.files (L.path .state) = none) (hres : w.proc.resolved = false) :
      wd.armed ≠ true ∧ wd.reportPending ≠ true := by
    refine ⟨fun harmed => ?_, fun hreport => ?_⟩
    · obtain ⟨-, -, m, htrial⟩ := h.armed harmed hres
      simp [htrial.state] at habsent
    · obtain ⟨-, -, m, hstate, -⟩ := h.report hreport hres
      simp [hstate] at habsent
  cases hr with
  | refused hs =>
    have hproc := hs.proc (by simp)
    have hfiles : w'.files = w.files := funext fun p => hs.files List.not_mem_nil
    refine ⟨h.disk.congr hfiles, h.stateDir, ?_, fun harmed hres => ?_, fun hreport hres => ?_⟩
    · rw [hfiles, hproc]
      exact h.absent
    · rw [hproc] at hres ⊢
      obtain ⟨hexe, hprev, m, htrial⟩ := h.armed harmed hres
      exact ⟨hexe, hprev, m, htrial.congr (by rw [hfiles]) (by rw [hfiles]) (by rw [hfiles])⟩
    · rw [hproc] at hres ⊢
      rw [hfiles]
      exact h.report hreport hres
  | unswapped absent hu =>
    obtain ⟨hinstall, hexe⟩ := h.absent absent
    have hgood := h.disk.good_of_absent absent
    have hproc := hu.proc (by rw [Process.binaryPath, hexe]; rfl)
    obtain rfl : good = img := by simpa using hgood.install.symm.trans hinstall
    refine ⟨.good ⟨hu.files_install.trans hinstall, ?_⟩, h.stateDir, fun _ => ?_,
      fun harmed hres => ?_, fun hreport hres => ?_⟩
    · rcases hu.state with hnone | ⟨t, hstate⟩
      · exact .inl hnone
      · exact .inr ⟨_, hstate, rfl, fun _ => hfits⟩
    · exact ⟨hu.files_install.trans hinstall, by rw [hproc, hexe]⟩
    · rw [hproc] at hres
      exact absurd harmed (hidle absent hres).1
    · rw [hproc] at hres
      exact absurd hreport (hidle absent hres).2
  | swapped b absent delivered probed hswap =>
    obtain ⟨hinstall, hexe⟩ := h.absent absent
    have hgood := h.disk.good_of_absent absent
    obtain rfl : good = img := by simpa using hgood.install.symm.trans hinstall
    obtain ⟨t, hstate⟩ := hswap.state
    obtain ⟨old, hold, hprev⟩ := hswap.prev
    obtain rfl : .image good = old := by simpa using hinstall.symm.trans hold
    have hversion := hA b delivered
    have hb : w'.files (L.path .install) = some (.image b) := by
      rw [World.files_eq, hswap.install]
      rfl
    have hres' : w'.proc.resolved = w.proc.resolved := by rw [hswap.proc]
    refine ⟨.trial b (pendingMarker build req (L.path .install) t)
        ⟨hb, hstate, hprev, rfl, hversion.symm, hversion ▸ hfits, rfl⟩, h.stateDir, fun hnone => ?_,
      fun harmed hres => ?_, fun hreport hres => ?_⟩
    · rw [hstate] at hnone
      cases hnone
    · exact absurd harmed (hidle absent (hres'.symm.trans hres)).1
    · exact absurd hreport (hidle absent (hres'.symm.trans hres)).2

/-- A rollback of a trial, by a process that runs the binary on trial. -/
theorem rollback_spec {reason : String} {new : β} {m : UpdateMarker}
    (hdir : wd.stateDir = L.stateDir) (hprev : wd.marker.prevBinary = L.path .prev)
    (hexe : w.proc.exe = some (L.path .install)) (hres : w.proc.resolved = true)
    (h : L.Trial host good new m w) :
    cwp (hostMachine host) A (L.Recoverable host good) (wd.rollback reason)
      (fun _ w' => L.Alive host good img wd w') w := by
  have hw : L.Recoverable host good w := .trial new m h
  have halive {v : World β} (hv : L.Recoverable host good v)
    (hstate : v.files (L.path .state) ≠ none)
      (hvres : v.proc.resolved = true) : L.Alive host good img wd v :=
    alive_of_resolved hv hdir (fun hnone => absurd hnone hstate) hvres
  unfold UpdateWatchdog.rollback
  refine ⟨hw, fun _ _ => ⟨hw, fun _ _ => ?_⟩⟩
  -- The deadline flag is set, and the files are the same.
  have hflag : w.SameFiles (w.setFlags w.proc.resolved true) := ⟨_, _, rfl⟩
  show cwp _ A _ (doRollback wd.stateDir wd.marker reason >>= fun restored =>
    if restored then raiseSigterm else .ret ()) _ (w.setFlags w.proc.resolved true)
  have hset : L.Trial host good new m (w.setFlags w.proc.resolved true) := h.congr rfl rfl rfl
  have hpath : (w.setFlags w.proc.resolved true).proc.binaryPath = L.path .install := by
    show w.proc.exe.getD _ = _
    rw [hexe]
    rfl
  have hsetres : (w.setFlags w.proc.resolved true).proc.resolved = true := hres
  generalize w.setFlags w.proc.resolved true = v at hset hpath hsetres ⊢
  have hv : L.Recoverable host good v := .trial new m hset
  have hvalive := halive hv (by simp [hset.state]) hsetres
  have hrecorded {v' : World β} (hrec : L.Recording wd.marker reason
      (v.rename wd.marker.prevBinary v.proc.binaryPath) v') : L.Recoverable host good v' ∧
        L.Alive host good img wd v' := by
    have hvres : v'.proc.resolved = true := by
      rw [hrec.scratch.shared]
      show (v.rename _ _).proc.resolved = true
      unfold World.rename
      split <;> exact hsetres
    rw [hprev, hpath] at hrec
    obtain ⟨hgood, hstate⟩ := hset.good_of_recording hprev hrec
    exact ⟨.good hgood, halive (.good hgood) hstate hvres⟩
  rw [hdir]
  refine wp_doRollback hv (fun _ => ⟨hv, hvalive⟩) (fun _ => hvalive)
    (fun v' _ hrec => (hrecorded hrec).1) fun v' _ hrec _ => ?_
  exact ⟨(hrecorded hrec).1, fun _ _ => hrecorded hrec⟩

/-- The rename of a rollback of a trial replaces the binary on trial. -/
theorem guards_rollback {reason : String} {new : β} {m : UpdateMarker}
    (hdir : wd.stateDir = L.stateDir) (hexe : w.proc.exe = some (L.path .install))
    (h : L.Trial host good new m w) :
    guards (hostMachine host) A (SparesGood L good) (wd.rollback reason) w := by
  have hset : L.Trial host good new m (w.setFlags w.proc.resolved true) := h.congr rfl rfl rfl
  refine ⟨fun _ h => (nomatch h), fun _ _ => ⟨fun _ h => (nomatch h), fun _ _ => ?_⟩⟩
  show guards _ A _ (doRollback wd.stateDir wd.marker reason >>= fun restored =>
    if restored then raiseSigterm else .ret ()) (w.setFlags w.proc.resolved true)
  rw [hdir]
  refine guards_then (guards_doRollback ?_) fun restored v => ?_
  · show (w.setFlags w.proc.resolved true).image (w.proc.exe.getD _) ≠ some good
    rw [hexe]
    exact hset.ne
  · split
    · exact ⟨fun _ h => (nomatch h), fun _ _ => trivial⟩
    · trivial

/-- A rollback changes nothing of what is tracked besides the world. -/
private theorem untracked_rollback {reason : String} :
    AllOps (Untracked (β := β) L false) (wd.rollback reason) := by
  refine .bind (.single ⟨rfl, by simp⟩) fun _ => .bind (.single ⟨rfl, by simp⟩) fun _ => ?_
  exact .bind untracked_doRollback fun _ => .ite (fun _ => .single ⟨rfl, by simp⟩) fun _ => trivial

/-- From `w` to `w'` a watchdog with the resolution has removed files, but not the binary. -/
structure Cleared (L : Layout) (w w' : World β) : Prop where
  install : w'.files (L.path .install) = w.files (L.path .install)
  state : w'.files (L.path .state) = w.files (L.path .state) ∨ w'.files (L.path .state) = none
  exe : w'.proc.exe = w.proc.exe
  resolved : w'.proc.resolved = true

/-- The operations of a confirmation and of a report: they keep the files, or remove one that is not
the installed binary. -/
def Clears (L : Layout) (o : SysOp β) : Prop :=
  o.keepsFiles = true ∨ ∃ f, f ≠ .install ∧ o = .remove (L.path f)

/-- A world in which the confirmation has cleared the trial stays so under the operations of the
confirmation. -/
theorem Cleared.exec {o : SysOp β} {c : Choice β} (h : Cleared L w w')
    (hexe : w.proc.exe = some (L.path .install)) (ho : Clears L o) :
    Cleared L w (exec host w' o c).2 := by
  -- An operation on the flags keeps the files, and a removal takes away what is cleared anyway.
  rcases ho with hkeeps | ⟨f, hf, rfl⟩
  · have hres : (ThinrAgent.exec host w' o c).2.proc.resolved = true := by
      by_cases hclaim : o = .claimResolution
      · subst hclaim
        rfl
      · exact (exec_resolved hclaim).trans h.resolved
    obtain ⟨r, d, hw⟩ : w'.SameFiles (ThinrAgent.exec host w' o c).2 :=
      exec_sameFiles_of_keeps host c hkeeps
    rw [hw] at hres ⊢
    exact ⟨h.install, h.state, h.exe, hres⟩
  · have hs : World.Scratch [L.path f] w' (w'.unlink (L.path f)) := World.Scratch.unlink _ _
    have hunlink : Cleared L w (w'.unlink (L.path f)) := by
      refine ⟨(hs.files (by simpa using hf.symm)).trans h.install, ?_, ?_, ?_⟩
      · by_cases hstate : f = .state
        · subst hstate
          exact .inr (by rw [World.files_eq, World.entry_unlink, World.entry_push_self]; rfl)
        · rw [hs.files (by simpa using Ne.symm hstate)]
          exact h.state
      · rw [hs.exe (by simpa [h.exe, hexe] using hf.symm), h.exe]
      · rw [hs.shared]
        exact h.resolved
    simp only [ThinrAgent.exec]
    split
    · exact h
    · show Cleared L w (if (w'.files (L.path f)).isSome then _ else w')
      split
      · exact hunlink
      · exact h

/-- The rule for the report of an earlier rollback, which removes only the marker that was read. -/
theorem reportRolledBack_spec {m : UpdateMarker} (h : L.Recoverable host good w)
    (hdir : wd.stateDir = L.stateDir) (hexe : w.proc.exe = some (L.path .install))
    (hinstall : w.files (L.path .install) = some (.image img))
    (hstate : w.files (L.path .state) = some (.json m.toJson)) (hm : m.phase = .rolledBack)
    (hres : w.proc.resolved = true) :
    cwp (hostMachine host) A (L.Recoverable host good) wd.reportRolledBack
      (fun _ w' => ∀ wd', wd'.stateDir = L.stateDir → L.Alive host good img wd' w') w := by
  -- The marker says rolled back, so there is no trial, and the installed binary is good.
  have hgood : L.Good host good w := by
    cases h with
    | good h => exact h
    | trial new m' h =>
      have hmm := h.state.symm.trans hstate
      have heq : some m' = some m := by
        rw [← World.marker_of_files h.state, World.marker_of_files hstate]
      cases heq
      rw [h.pending] at hm
      cases hm
  -- The report removes the marker at most.
  have hclears : AllOps (Clears (β := β) L) wd.reportRolledBack := by
    refine allOps_reportRolledBack.mono fun o ho => ho.2.imp_right fun ho => ⟨.state, by simp, ?_⟩
    rw [ho, hdir]
    rfl
  have hw : Cleared L w w := ⟨rfl, .inl rfl, rfl, hres⟩
  have hrec {v : World β} (hv : Cleared L w v) : L.Recoverable host good v :=
    .good (hgood.congr hv.install hv.state)
  refine cwp_mono (cwp_of_allOps (fun v o c ho hv => hv.exec hexe ho) hclears hw)
    (fun v hv => hrec hv) fun r v _ hv wd' hwd' => ?_
  exact alive_of_resolved (hrec hv) hwd'
    (fun _ => ⟨hv.install.trans hinstall, hv.exe.trans hexe⟩) hv.resolved

/-- The rule for claiming the resolution and rolling back, with the guard on the files that it
spares. -/
theorem claimRollback_spec (reason : String) (h : L.Alive host good img wd w)
    (harmed : wd.armed = true) :
    cwp (hostMachine host) A (L.Recoverable host good)
        (wd.claimRollback reason)
        (fun r w' => L.Alive host good img wd w' ∧ ∀ wd', r = .ok wd' → wd' = wd) w ∧
      guards (hostMachine host) A (SparesGood L good) (wd.claimRollback reason) w := by
  have hclaimed : w.SameFiles (w.setFlags true w.proc.deadlineStop) := ⟨_, _, rfl⟩
  cases hres : w.proc.resolved with
  | true =>
    -- Another thread has resolved the trial: nothing happens.
    have hafter : L.Alive host good img wd (w.setFlags true w.proc.deadlineStop) :=
      h.claimed hclaimed rfl rfl
    refine ⟨⟨h.disk, fun c _ => ?_⟩, fun _ h => (nomatch h), fun c _ => ?_⟩
    · show cwp (hostMachine host) A _ (if !(!w.proc.resolved) then .ret wd
        else wd.rollback reason >>= fun _ => .ret wd) _ (w.setFlags true w.proc.deadlineStop)
      rw [hres]
      refine ⟨hafter.disk, hafter, ?_⟩
      rintro _ ⟨rfl⟩
      rfl
    · show guards (hostMachine host) A _ (if !(!w.proc.resolved) then .ret wd
        else wd.rollback reason >>= fun _ => .ret wd) _
      rw [hres]
      trivial
  | false =>
    -- The claim is made, so the trial is still the one the watchdog was armed for.
    obtain ⟨hexe, hprev, m, htrial⟩ := h.armed harmed hres
    have hset : L.Trial host good img m (w.setFlags true w.proc.deadlineStop) :=
      htrial.congr rfl rfl rfl
    refine ⟨⟨h.disk, fun c _ => ?_⟩, fun _ h => (nomatch h), fun c _ => ?_⟩
    · show cwp (hostMachine host) A _ (if !(!w.proc.resolved) then .ret wd
        else wd.rollback reason >>= fun _ => .ret wd) _ (w.setFlags true w.proc.deadlineStop)
      rw [hres]
      have hroll : cwp (hostMachine host) A (L.Recoverable host good) (wd.rollback reason)
          (fun _ w' => L.Alive host good img wd w') (w.setFlags true w.proc.deadlineStop) :=
        rollback_spec h.stateDir hprev hexe rfl hset
      refine cwp_bind (cwp_mono hroll (fun v hv => hv) ?_)
      intro r v hv halive
      cases r with
      | error e => exact ⟨halive, by simp⟩
      | ok u =>
        refine ⟨hv, halive, ?_⟩
        rintro _ ⟨rfl⟩
        rfl
    · show guards (hostMachine host) A _ (if !(!w.proc.resolved) then .ret wd
        else wd.rollback reason >>= fun _ => .ret wd) (w.setFlags true w.proc.deadlineStop)
      rw [hres]
      exact guards_then (guards_rollback h.stateDir hexe hset) fun _ _ => trivial

/-- To claim the resolution and roll back changes nothing of what is tracked besides the world. -/
private theorem untracked_claimRollback {reason : String} :
    AllOps (Untracked (β := β) L false) (wd.claimRollback reason) := by
  refine .bind (.single ⟨rfl, by simp⟩) fun free => .ite (fun _ => trivial) fun _ => ?_
  exact .bind untracked_rollback fun _ => trivial

end Activities

/-! ### The confirmation -/

section Confirm

variable {β α : Type} {host : Host β} {L : Layout} {A : SysOp β → Choice β → Prop} {img : β}
  {t : Tracked β} {wd : UpdateWatchdog}

/-- A known-good binary that has been given up for lost stays so. Every assertion is void from then
on. -/
theorem lost_exec {o : SysOp β} {c : Choice β} (h : t.lost = true) :
    ((trackedMachine host L img).exec t o c).2.lost = true := by
  simp [trackedMachine, h]

/-- After a confirmation that could not remove the marker nothing is claimed. -/
theorem cwp_of_lost {p : SysM β α} (h : t.lost = true) :
    cwp (trackedMachine host L img) A (DiskOk host L) p (fun _ t' => t'.lost = true) t := by
  have hdisk {t : Tracked β} (h : t.lost = true) : DiskOk host L t := fun h' => by
    rw [h] at h'
    cases h'
  induction p generalizing t with
  | ret a => exact ⟨hdisk h, h⟩
  | throw e => exact ⟨hdisk h, h⟩
  | call o k ih => exact ⟨hdisk h, fun c _ => ih _ (lost_exec h)⟩

/-- The entry of a confirmation is what the tracked state remembers. -/
theorem tracked_enter (c : Choice β) : (trackedMachine host L img).exec t (.enter .confirm) c =
    ((), { t with confirming := true }) := by
  simp only [trackedMachine, exec, SysOp.removes, SysOp.entersConfirm, Bool.and_false,
    Bool.false_and, Bool.or_false, Bool.or_true, Bool.false_eq_true, if_false]
  rfl

/-- The removal of the marker in a confirmation. -/
theorem tracked_remove (c : Choice β) (h : t.confirming = true) (hlost : t.lost = false) :
    (trackedMachine host L img).exec t (.remove (L.path .state)) c =
      ((exec host t.world (.remove (L.path .state)) c).1, { t with
        world := (exec host t.world (.remove (L.path .state)) c).2
        good := img
        lost := c.error.isSome }) := by
  simp [trackedMachine, SysOp.removes, SysOp.entersConfirm, h, hlost]

/-- What a confirmation does after the removal of the marker. -/
def UpdateWatchdog.confirmRest (wd : UpdateWatchdog) : SysM β Unit := do
  if wd.marker.prevBinary ≠ "" then removeQuiet wd.marker.prevBinary
  UpdateWatchdog.report "confirmed" wd.marker.fromVersion wd.marker.toVersion "ok"

/-- What a confirmation does behind the removal of the marker: it removes the backup and tells about
the update, on a trial whose backup has the usual path. -/
private theorem allOps_confirmRest (hprev : wd.marker.prevBinary = L.path .prev) :
    AllOps (fun o : SysOp β => Clears L o ∧ Untracked L true o) wd.confirmRest := by
  have htells {o : SysOp β} (ho : o.tells = true) : Clears L o ∧ Untracked L true o := by
    cases o <;> first
      | (cases ho; done)
      | exact ⟨.inl rfl, rfl, fun _ => rfl⟩
  have hreport : AllOps (fun o : SysOp β => Clears L o ∧ Untracked L true o)
      (UpdateWatchdog.report "confirmed" wd.marker.fromVersion wd.marker.toVersion "ok") :=
    (allOps_report ..).mono fun _ ho => htells ho
  unfold UpdateWatchdog.confirmRest
  rw [hprev]
  refine .ite (fun _ => .bind (.bind (.single ?_) fun _ => trivial) fun _ => hreport)
    fun _ => hreport
  exact ⟨.inr ⟨.prev, by simp, rfl⟩, rfl, by simp [SysOp.removes]⟩

/-- After the removal of the marker the binary on trial is the good one. -/
theorem confirmRest_spec (hdir : wd.stateDir = L.stateDir)
    (hprev : wd.marker.prevBinary = L.path .prev)
    (hexe : t.world.proc.exe = some (L.path .install)) (hres : t.world.proc.resolved = true)
    (hinstall : t.world.files (L.path .install) = some (.image img))
    (hstate : t.world.files (L.path .state) = none) (hconf : t.confirming = true)
    (himg : t.good = img) : cwp (trackedMachine host L img) A (DiskOk host L) wd.confirmRest
      (fun _ t' => IdleOk host L img wd t') t := by
  subst himg
  have hgood : L.Good host t.good t.world := ⟨hinstall, .inl hstate⟩
  have hw : Cleared L t.world t.world := ⟨rfl, .inl rfl, rfl, hres⟩
  have hops := allOps_confirmRest (β := β) hprev
  have hrec {v : World β} (hv : Cleared L t.world v) : L.Recoverable host t.good v :=
    .good (hgood.congr hv.install hv.state)
  have hcwp : cwp (hostMachine host) A (Cleared L t.world) wd.confirmRest
      (fun _ v => Cleared L t.world v) t.world :=
    cwp_of_allOps (fun v o c ho hv => hv.exec hexe ho) (hops.mono fun _ ho => ho.1) hw
  refine cwp_mono (cwp_tracked (by rw [hconf]; exact hops.mono fun _ ho => ho.2) hcwp) ?_ ?_
  · rintro _ ⟨v, rfl, hv⟩ -
    exact hrec hv
  · rintro r _ - ⟨v, rfl, hv⟩ -
    exact alive_of_resolved (hrec hv) hdir
      (fun _ => ⟨hv.install.trans hinstall, hv.exe.trans hexe⟩) hv.resolved

/-- A confirmation of a trial, by a process that runs the binary on trial. -/
theorem confirm_spec {m : UpdateMarker} (hdir : wd.stateDir = L.stateDir)
    (hprev : wd.marker.prevBinary = L.path .prev)
    (hexe : t.world.proc.exe = some (L.path .install)) (hres : t.world.proc.resolved = true)
    (h : L.Trial host t.good img m t.world) (hlost : t.lost = false) :
    cwp (trackedMachine host L img) A (DiskOk host L) wd.confirm
      (fun _ t' => IdleOk host L img wd t') t := by
  -- Up to the removal the trial goes on.
  have hdisk {t' : Tracked β} (hgood : t'.good = t.good) (hw : t.world.SameFiles t'.world) :
      DiskOk host L t' := by
    obtain ⟨r, d, hw⟩ := hw
    rintro -
    rw [hgood, hw]
    exact .trial img m (h.congr rfl rfl rfl)
  show cwp (trackedMachine host L img) A (DiskOk host L)
    (enter .confirm >>= fun _ => setDeadlineStop >>= fun _ => removeQuiet wd.markerPath >>= fun _ =>
      wd.confirmRest) _ t
  refine ⟨hdisk rfl (World.SameFiles.refl _), fun c _ => ?_⟩
  rw [tracked_enter]
  refine ⟨hdisk rfl (World.SameFiles.refl _), fun c _ => ?_⟩
  rw [exec_of_untracked ⟨rfl, fun _ => rfl⟩]
  have hset : L.Trial host t.good img m (t.world.setFlags t.world.proc.resolved true) :=
    h.congr rfl rfl rfl
  refine ⟨hdisk rfl ⟨_, _, rfl⟩, fun c _ => ?_⟩
  rw [UpdateWatchdog.markerPath, hdir, L.stateFile_stateDir]
  show cwp (trackedMachine host L img) A (DiskOk host L) wd.confirmRest _
    ((trackedMachine host L img).exec
      { t with world := t.world.setFlags t.world.proc.resolved true, confirming := true }
      (.remove (L.path .state)) c).2
  rw [tracked_remove (t := { t with
    world := t.world.setFlags t.world.proc.resolved true, confirming := true }) c rfl hlost]
  have hflag : (t.world.setFlags t.world.proc.resolved true).proc.exe = some (L.path .install) ∧
      (t.world.setFlags t.world.proc.resolved true).proc.resolved = true := ⟨hexe, hres⟩
  generalize t.world.setFlags t.world.proc.resolved true = w at hset hflag ⊢
  cases hc : c.error with
  | some e =>
    refine cwp_mono (cwp_of_lost rfl) (fun t' ht' => ht') fun r t' _ hlost' hno => ?_
    rw [hlost'] at hno
    cases hno
  | none =>
    have hs : World.Scratch [L.path .state] w (w.unlink (L.path .state)) := World.Scratch.unlink _ _
    have hworld : (exec host w (.remove (L.path .state)) c).2 = w.unlink (L.path .state) := by
      simp [exec, hc, hset.state]
    show cwp (trackedMachine host L img) A _ _ _ { t with
      world := (exec host w (.remove (L.path .state)) c).2, good := img, confirming := true
      lost := false }
    rw [hworld]
    refine confirmRest_spec hdir hprev ?_ ?_ ?_ ?_ rfl rfl
    · exact (hs.exe (by simp [hflag.1])).trans hflag.1
    · show (w.unlink _).proc.resolved = true
      rw [hs.shared]
      exact hflag.2
    · exact (hs.files (by simp)).trans hset.install
    · show (w.unlink _).files _ = none
      rw [World.files_eq, World.entry_unlink, World.entry_push_self]
      rfl

end Confirm

/-! ### One activity -/

section Activity

variable {β : Type} {host : Host β} {L : Layout} {img : β} {t : Tracked β} {wd : UpdateWatchdog}

/-- The start-up of a process, from a device that is in order to a process that is idle. -/
theorem proceeds_startUp (h : DiskOk host L t)
    (hinstall : t.world.image (L.path .install) = some img)
    (hexe : t.world.proc.exe = some (L.path .install)) (hconf : t.confirming = false) :
    Proceeds host L (DiskOk host L) (IdleOk host L) (SparesOk L) img none
      (startUp L.stateDir (host.reportedVersion img)) t := by
  cases hlost : t.lost with
  | true => exact proceeds_of_lost hlost
  | false =>
    have hfile := World.files_of_image hinstall
    have hpath : t.world.proc.binaryPath = L.path .install := by rw [Process.binaryPath, hexe]; rfl
    exact proceeds_of_world (by rw [hconf]; exact untracked_startUp)
      (startUp_spec (h hlost) hfile hexe) (guards_startUp (h hlost) hfile hpath)

/-- The end of a client state: the watchdog goes on as it was, or with its report made. -/
private theorem proceeds_of_onState {state : ClientState} {reason : String}
    {p : SysM β UpdateWatchdog} (hp : wd.onState state reason = p) (hconf : t.confirming = false)
    (hops : AllOps (Untracked L false) p)
    (hcwp : cwp (hostMachine host) (Activity.Answers host (some (.event state reason)))
      (L.Recoverable host t.good) p (fun r w => L.Alive host t.good img wd w ∧
        ∀ wd', r = .ok wd' → L.Alive host t.good img wd' w) t.world)
    (hguards : guards (hostMachine host) (Activity.Answers host (some (.event state reason)))
      (SparesGood L t.good) p t.world) :
    Proceeds host L (DiskOk host L) (IdleOk host L) (SparesOk L) img (some (.event state reason))
      ((Activity.event state reason).prog host L wd) t := by
  show Proceeds host L (DiskOk host L) (IdleOk host L) (SparesOk L) img _
    ((wd.onState state reason).tryCatch fun _ => .ret wd) t
  rw [hp]
  refine proceeds_of_world (by rw [hconf]; exact hops.tryCatch fun _ => trivial) ?_
    (guards_tryCatch hguards fun _ _ => trivial)
  refine cwp_tryCatch (cwp_mono hcwp (fun v hv => hv) fun r v hv hr => ?_)
  cases r with
  | ok wd' =>
    rintro _ ⟨rfl⟩
    exact hr.2 wd' rfl
  | error e =>
    refine ⟨hv, ?_⟩
    rintro _ ⟨rfl⟩
    exact hr.1

/-- An operation that only tells the server something is plain. -/
private theorem plain_of_tells {o : SysOp β} (h : o.tells = true) : Plain L o := by
  cases o <;> first
    | (cases h; done)
    | exact ⟨rfl, by simp⟩

/-- A report is plain: it sends, and it removes its marker. -/
private theorem plain_claimReport : AllOps (Plain (β := β) L) wd.claimReport := by
  refine .bind (.single ⟨rfl, by simp⟩) fun free => .ite (fun _ => trivial) fun _ => ?_
  refine .bind (.bind (.single ⟨rfl, by simp⟩) fun _ => ?_) fun _ => trivial
  refine .bind (allOps_lastReverted.mono fun _ ho => plain_of_tells ho) fun rv => ?_
  exact .bind ((allOps_report ..).mono fun _ ho => plain_of_tells ho) fun _ => plain_removeQuiet

/-- A client state that reports an earlier rollback. -/
private theorem proceeds_claimReport {state : ClientState} {reason : String}
    (h : L.Alive host t.good img wd t.world) (hconf : t.confirming = false)
    (hreport : wd.reportPending = true)
    (hp : (wd.onState state reason : SysM β UpdateWatchdog) = wd.claimReport) :
    Proceeds host L (DiskOk host L) (IdleOk host L) (SparesOk L) img (some (.event state reason))
      ((Activity.event state reason).prog host L wd) t := by
  refine proceeds_of_onState hp hconf (untracked_of_plain plain_claimReport) ⟨h.disk, fun c _ => ?_⟩
    (guards_of_plain plain_claimReport)
  have hclaimed : t.world.SameFiles (t.world.setFlags true t.world.proc.deadlineStop) := ⟨_, _, rfl⟩
  show cwp (hostMachine host) _ _ (if !(!t.world.proc.resolved) then .ret wd
    else wd.reportRolledBack >>= fun _ => .ret { wd with reportPending := false }) _
    (t.world.setFlags true t.world.proc.deadlineStop)
  -- A claim that fails leaves the world alone, and one that works removes the marker.
  cases hres : t.world.proc.resolved with
  | true =>
    have hafter := h.claimed hclaimed rfl (rfl : wd.stateDir = wd.stateDir)
    refine ⟨hafter.disk, hafter, ?_⟩
    rintro _ ⟨rfl⟩
    exact hafter
  | false =>
    obtain ⟨hexe, hinstall, m, hstate, hm⟩ := h.report hreport hres
    refine cwp_bind (cwp_mono (reportRolledBack_spec (m := m) (h.disk.congr rfl) h.stateDir hexe
      hinstall hstate hm rfl) (fun v hv => hv) fun r v hv hr => ?_)
    cases r with
    | error e => exact ⟨hr wd h.stateDir, by simp⟩
    | ok u =>
      refine ⟨hv, hr wd h.stateDir, ?_⟩
      rintro _ ⟨rfl⟩
      exact hr _ h.stateDir

/-- A confirmation writes no file. It removes two. -/
private theorem noRename_confirm : AllOps (fun o : SysOp β => o.writes = false)
    (wd.claimConfirm) := by
  obtain ⟨p, hp, hops⟩ := confirm_eq (β := β) wd
  unfold UpdateWatchdog.claimConfirm
  rw [hp]
  refine .bind (.single rfl) fun free => .ite (fun _ => trivial) fun _ => ?_
  exact .bind (.bind (.single rfl) fun _ => hops.mono fun _ ho => ho.2.2) fun _ => trivial

/-- A client state that confirms the trial, whose version becomes the good one. -/
private theorem proceeds_claimConfirm {state : ClientState} {reason : String}
    (h : L.Alive host t.good img wd t.world) (hlost : t.lost = false) (harmed : wd.armed = true)
    (hp : (wd.onState state reason : SysM β UpdateWatchdog) = wd.claimConfirm) :
    Proceeds host L (DiskOk host L) (IdleOk host L) (SparesOk L) img (some (.event state reason))
      ((Activity.event state reason).prog host L wd) t := by
  show Proceeds host L (DiskOk host L) (IdleOk host L) (SparesOk L) img _
    ((wd.onState state reason).tryCatch fun _ => .ret wd) t
  rw [hp]
  refine ⟨cwp_tryCatch ⟨fun _ => h.disk, fun c _ => ?_⟩,
    ?_⟩
  · rw [exec_of_untracked ⟨rfl, fun _ => rfl⟩]
    have hclaimed : t.world.SameFiles (t.world.setFlags true t.world.proc.deadlineStop) :=
      ⟨_, _, rfl⟩
    show cwp (trackedMachine host L img) _ _ (if !(!t.world.proc.resolved) then .ret wd
      else wd.confirm >>= fun _ => .ret wd) _
      { t with world := t.world.setFlags true t.world.proc.deadlineStop }
    cases hres : t.world.proc.resolved with
    | true =>
      have hafter := h.claimed hclaimed rfl (rfl : wd.stateDir = wd.stateDir)
      refine ⟨fun _ => hafter.disk, ?_⟩
      rintro _ ⟨rfl⟩ -
      exact hafter
    | false =>
      obtain ⟨hexe, hprev, m, htrial⟩ := h.armed harmed hres
      have hset : L.Trial host t.good img m (t.world.setFlags true t.world.proc.deadlineStop) :=
        htrial.congr rfl rfl rfl
      refine cwp_bind (cwp_mono (confirm_spec (m := m) h.stateDir hprev hexe rfl hset hlost)
        (fun t' ht' => ht') fun r t' ht' hr => ?_)
      cases r with
      | error e =>
        refine ⟨ht', ?_⟩
        rintro _ ⟨rfl⟩
        exact hr
      | ok u =>
        refine ⟨ht', ?_⟩
        rintro _ ⟨rfl⟩
        exact hr
  -- A confirmation renames nothing.
  · have hops : AllOps (fun o : SysOp β => o.writes = false)
        (wd.claimConfirm.tryCatch fun _ => .ret wd) := noRename_confirm.tryCatch fun _ => trivial
    refine guards_of_allOps (fun o ho t' => ?_) hops t
    rintro - dst rfl
    cases ho

/-- A client state, by what the watchdog does about it: nothing, a report, a confirmation or a
rollback. -/
theorem proceeds_event {state : ClientState} {reason : String} (h : IdleOk host L img wd t)
    (hconf : t.confirming = false) :
    Proceeds host L (DiskOk host L) (IdleOk host L) (SparesOk L) img (some (.event state reason))
      ((Activity.event state reason).prog host L wd) t := by
  cases hlost : t.lost with
  | true => exact proceeds_of_lost hlost
  | false =>
    have halive := h hlost
    -- A state that the watchdog ignores leaves everything as it is.
    have hret (hp : (wd.onState state reason : SysM β UpdateWatchdog) = .ret wd) :
        Proceeds host L (DiskOk host L) (IdleOk host L) (SparesOk L) img
          (some (.event state reason)) ((Activity.event state reason).prog host L wd) t := by
      refine proceeds_of_onState hp hconf trivial ⟨halive.disk, halive, ?_⟩ trivial
      rintro _ ⟨rfl⟩
      exact halive
    -- The ways through `on_state`: a report, a confirmation, a rollback, or nothing.
    have heq := wd.onState_eq (β := β) state reason
    split at heq
    · split at heq
      · exact proceeds_claimReport halive hconf ‹_› heq
      split at heq
      · exact proceeds_claimConfirm halive hlost ‹_› heq
      · exact hret heq
    · split at heq
      · obtain ⟨hcwp, hguards⟩ := claimRollback_spec "auth_failed" halive (‹_ ∧ _›).1
        refine proceeds_of_onState heq hconf untracked_claimRollback
          (cwp_mono hcwp (fun v hv => hv) fun r v _ hr => ⟨hr.1, fun wd' hwd' => ?_⟩) hguards
        obtain rfl := hr.2 wd' hwd'
        exact hr.1
      · exact hret heq

/-- The thread of the deadline, which rolls back if it gets the resolution. -/
theorem proceeds_deadline (h : IdleOk host L img wd t) (hconf : t.confirming = false) :
    Proceeds host L (DiskOk host L) (IdleOk host L) (SparesOk L) img (some .deadline)
      (Activity.deadline.prog host L wd) t := by
  cases hlost : t.lost with
  | true => exact proceeds_of_lost hlost
  | false =>
    have halive := h hlost
    -- A thread that is told to stop leaves everything as it is.
    have hret : cwp (hostMachine host) (Activity.Answers host (some .deadline))
        (L.Recoverable host t.good) (.ret wd : SysM β UpdateWatchdog)
        (fun r w => ∀ wd', r = .ok wd' → L.Alive host t.good img wd' w) t.world := by
      refine ⟨halive.disk, ?_⟩
      rintro _ ⟨rfl⟩
      exact halive
    show Proceeds host L (DiskOk host L) (IdleOk host L) (SparesOk L) img _
      (if wd.armed then wd.deadlineLoop >>= fun _ => .ret wd else .ret wd) t
    rw [wd.deadlineLoop_eq]
    split
    case isFalse => exact proceeds_of_world trivial hret trivial
    case isTrue harmed =>
      obtain ⟨hcwp, hguards⟩ := claimRollback_spec "deadline" halive harmed
      refine proceeds_of_world ?_ ⟨halive.disk, fun c _ => ?_⟩
        ⟨fun _ h => (nomatch h), fun c _ => ?_⟩
      · rw [hconf]
        exact .bind (.single ⟨rfl, by simp⟩) fun stop => .ite (fun _ => trivial) fun _ =>
          untracked_claimRollback
      · show cwp (hostMachine host) _ _ (if t.world.proc.deadlineStop then .ret wd
          else wd.claimRollback "deadline") _ t.world
        split
        · exact hret
        · refine cwp_mono hcwp (fun v hv => hv) fun r v _ hr wd' hwd' => ?_
          obtain rfl := hr.2 wd' hwd'
          exact hr.1
      · show guards (hostMachine host) _ _ (if t.world.proc.deadlineStop then .ret wd
          else wd.claimRollback "deadline") t.world
        split
        · trivial
        · exact hguards

/-- An update, which leaves the installed binary or puts a new one on trial. -/
theorem proceeds_apply {build : Build} {req : ApplyRequest} (h : IdleOk host L img wd t)
    (hconf : t.confirming = false) (hfits : (Activity.apply build req).Fits host img) :
    Proceeds host L (DiskOk host L) (IdleOk host L) (SparesOk L) img (some (.apply build req))
      ((Activity.apply build req).prog host L wd) t := by
  cases hlost : t.lost with
  | true => exact proceeds_of_lost hlost
  | false =>
    have halive := h hlost
    have hplain : AllOps (Plain (β := β) L) ((Activity.apply build req).prog host L wd) :=
      .tryCatch (.bind plain_applyWithWatchdog fun _ => trivial) fun _ => trivial
    refine proceeds_of_world (by rw [hconf]; exact untracked_of_plain hplain) ?_
      (guards_of_plain hplain)
    -- Without a marker the process runs the installed binary, so the swap is the one of the
    -- layout.
    have hpath (habsent : t.world.files (L.path .state) = none) :
        t.world.proc.binaryPath = L.path .install := by
      rw [Process.binaryPath, (halive.absent habsent).2]
      rfl
    have hdelivers (b : β) (hb : Delivers (Activity.Answers host (some (.apply build req))) req.url
        (L.path .new) b) : host.reportedVersion b = req.version := by
      obtain ⟨c, hc, hleft⟩ := hb
      exact hc _ rfl b hleft
    -- Wherever the apply stops, the device is alive with its marker or without.
    have hend {v : World β} (hv : L.Reached build { req with stateDir := L.stateDir } host
        (Activity.Answers host (some (.apply build req))) t.world v) :
        L.Alive host t.good img wd v :=
          halive.reached { req with stateDir := L.stateDir } hfits hdelivers hv
    refine cwp_tryCatch (cwp_bind (cwp_mono (applyWithWatchdog_spec rfl hpath)
      (fun v hv => (hend hv).disk) fun r v hv _ => ?_))
    have hv := hend hv
    cases r with
    | ok res =>
      refine ⟨hv.disk, ?_⟩
      rintro _ ⟨rfl⟩
      exact hv
    | error e =>
      refine ⟨hv.disk, ?_⟩
      rintro _ ⟨rfl⟩
      exact hv

/-- Every activity of a process proceeds, by the cases above. -/
theorem proceeds_prog {a : Activity} (h : IdleOk host L img wd t) (hconf : t.confirming = false)
    (hfits : a.Fits host img) :
    Proceeds host L (DiskOk host L) (IdleOk host L) (SparesOk L) img (some a)
      (a.prog host L wd) t := by
  cases a with
  | apply build req => exact proceeds_apply h hconf hfits
  | event state reason => exact proceeds_event h hconf
  | deadline => exact proceeds_deadline h hconf

end Activity

/-! ### Every run -/

/-- The rename a process is about to perform. -/
def Run.renaming {β : Type} : Run β → Option (Path × Path)
  | .busy _ _ (.call (.rename src dst) _) => some (src, dst)
  | _ => none

namespace Device

variable {β : Type} (host : Host β) (L : Layout) (d : Device β)

/-- An installed binary that is not the known-good one is on trial: its marker is pending, and the
backup in the marker is the known-good binary. -/
def Recoverable : Prop :=
  ∀ n, d.tracked.world.image (L.path .install) = some n → n ≠ d.tracked.good →
    ∃ m, d.tracked.world.marker L.stateDir = some m ∧ m.phase = .pending ∧
      m.toVersion = host.reportedVersion n ∧
      d.tracked.world.image m.prevBinary = some d.tracked.good

/-- A restore that is about to happen does not replace the known-good binary. -/
def Spares : Prop :=
  ∀ dst, d.run.renaming = some (L.path .prev, dst) →
    d.tracked.world.image dst ≠ some d.tracked.good

/-- The run keeps the known-good binary: in the device it ends in, and about to happen to it. -/
structure Safe : Prop where
  recoverable : d.Recoverable host L
  spares : d.Spares L

variable {host L d}

/-- The invariant of a device gives its safety, as long as nothing has been given up for lost. -/
theorem safe_of_inv (h : d.Inv host L (DiskOk host L) (IdleOk host L) (SparesOk L))
    (hlost : d.tracked.lost = false) : d.Safe host L := by
  have hdisk := h.disk (fun img wd t ht hlost => (ht hlost).disk) hlost
  refine ⟨fun n hn hne => ?_, ?_⟩
  · cases hdisk with
    | good hgood =>
      rw [World.image_of_files hgood.install] at hn
      exact absurd (Option.some.inj hn).symm hne
    | trial new m htrial =>
      have hnew : new = n := by
        rw [World.image_of_files htrial.install] at hn
        exact Option.some.inj hn
      subst hnew
      refine ⟨m, World.marker_of_files htrial.state, htrial.pending, htrial.version, ?_⟩
      rw [htrial.backup]
      exact World.image_of_files htrial.prev
  -- A rename that is about to happen is the next operation of the process, which is guarded.
  · intro dst hrename
    unfold Run.renaming at hrename
    split at hrename
    · rename_i hrun
      cases hrename
      rw [Device.Inv, hrun] at h
      exact h.2.1 hlost dst rfl
    · cases hrename

end Device

section Run

variable {β : Type} {host : Host β} {L : Layout} {w : World β} {good : β} {ms : List (Move β)}

/-- The known-good binary is never lost: in every run of a device in which no confirmation has
failed to remove the marker, the binary installed is the known-good one, or its trial can be
rolled back to it. -/
theorem recoverable_run (hinstall : w.files (L.path .install) = some (.image good))
    (habsent : w.files (L.path .state) = none)
    (hms : (Device.initial w good).AllowsRun host L ms)
    (hlost : ((Device.initial w good).runMoves host L ms).tracked.lost = false) :
    ((Device.initial w good).runMoves host L ms).Safe host L := by
  refine Device.safe_of_inv (Device.run_inv (fun img wd t ht hlost => (ht hlost).disk)
    (fun t img pid ht himg => ?_) (fun t img wd a ht hfits => ?_) ?_ hms) hlost
  · exact proceeds_startUp (fun hlost => (ht hlost).congr rfl) himg rfl rfl
  · exact proceeds_prog ht rfl hfits
  · exact fun _ => .good ⟨hinstall, .inl habsent⟩

end Run

/-! ### A sample device -/

/-- The moves that install the binary 2, start it, and meet no failure. -/
def sampleTrialMoves : List (Move Nat) :=
  [.boot 10] ++ List.replicate 4 (.op .ok) ++ [.begin (.apply sampleBuild (sampleRequest "2"))] ++
    sampleAnswers.map .op ++ List.replicate 10 (.op .ok) ++ [.die, .boot 11] ++
    List.replicate 20 (.op .ok)

/-- The sample device after the moves, from a new device with the sample binary installed. -/
def sampleDevice (ms : List (Move Nat)) : Device Nat :=
  (Device.initial sampleWorld 1).runMoves sampleHost Layout.system ms

/-- A device that updates from 1 to 2, crashes in the trial and starts again: it is on trial with
the new binary, and safe. -/
theorem recoverable_run_sample :
    (sampleDevice sampleTrialMoves).tracked.world.image (Layout.system.path .install) = some 2 ∧
      (sampleDevice sampleTrialMoves).tracked.good = 1 ∧
      (sampleDevice sampleTrialMoves).Safe sampleHost Layout.system :=
  ⟨by decide +kernel, by decide +kernel, recoverable_run
    (by simp [sampleWorld, Layout.path]) (by simp [sampleWorld]; decide +kernel) (by decide +kernel)
    (by decide +kernel)⟩

/-- The binary 2 is confirmed, but neither the marker nor the backup can be removed. The process
dies, and the next one rolls back at its deadline. -/
def sampleLostMoves : List (Move Nat) :=
  sampleTrialMoves ++ [.begin (.event .streamsReady "")] ++ List.replicate 3 (.op .ok) ++
    List.replicate 3 (.op (.fail (.other 5) none)) ++ [.die, .boot 12] ++
    List.replicate 20 (.op .ok) ++ [.begin .deadline] ++ List.replicate 6 (.op .ok)

/-- Without the amendment the statement is false: a confirmation that fails to remove the marker
lets the next start roll the confirmed binary back. -/
theorem not_recoverable_sample : ¬ ∀ ms : List (Move Nat),
    (Device.initial sampleWorld 1).AllowsRun sampleHost Layout.system ms →
      (sampleDevice ms).Safe sampleHost Layout.system := by
  intro h
  have hsafe := h sampleLostMoves (by decide +kernel)
  -- The backup 1 is about to replace the confirmed binary 2.
  exact hsafe.spares (Layout.system.path .install) (by decide +kernel) (by decide +kernel)

end ThinrAgent
