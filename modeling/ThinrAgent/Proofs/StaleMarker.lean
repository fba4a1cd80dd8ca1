import ThinrAgent.Proofs.Device

/-!
# `ThinrAgent.Proofs.StaleMarker`: which markers a start clears

An update is refused while `update.state` exists, whatever is in it. A start looks at the parsed
content. `readyAfterBoot` is a start that proceeds and comes to `STREAMS_READY` before any
deadline. `markerCleared_iff` says for which contents of the file it is gone then: a pending
marker, and a rolled-back one whose report does not throw. A file without a usable marker is
kept.
-/

set_option autoImplicit false

namespace ThinrAgent

open Effects

section Rules

variable {β α : Type} {host : Host β} {A : SysOp β → Choice β → Prop} {J : World β → Prop}
  {Q : Except Exc α → World β → Prop} {w : World β} {wd : UpdateWatchdog}

/-- The rule for a report, which changes nothing of the host. -/
theorem wp_report {event fromVersion toVersion reason : String} {k : Unit → SysM β α} (hJ : J w)
    (hk : cwp (hostMachine host) A J (k ()) Q w) :
    cwp (hostMachine host) A J
      (UpdateWatchdog.report event fromVersion toVersion reason >>= k) Q w := by
  unfold UpdateWatchdog.report
  refine ⟨hJ, fun c _ => ?_⟩
  show cwp _ A J ((if !c.error.isNone then .ret () else _) >>= k) Q w
  cases c.error with
  | some e => exact hk
  | none => exact ⟨hJ, fun _ _ => ⟨hJ, fun _ _ => hk⟩⟩

/-- The claim of a resolution that is free. -/
theorem wp_claimResolution_of_free {k : Bool → SysM β α} (hfree : w.proc.resolved = false)
    (hJ : J w) (hk : cwp (hostMachine host) A J (k true) Q (w.setFlags true w.proc.deadlineStop)) :
    cwp (hostMachine host) A J (claimResolution >>= k) Q w := by
  refine ⟨hJ, fun c _ => ?_⟩
  show cwp _ A J (k (!w.proc.resolved)) Q (w.setFlags true w.proc.deadlineStop)
  rw [hfree]
  exact hk

/-- A confirmation whose removals work removes the marker. -/
theorem confirm_removes (hremove : ∀ p, ¬ CanFail A (.remove p)) :
    cwp (hostMachine host) A (fun _ => True) wd.confirm
      (fun r v => r = .ok () ∧ v.files wd.markerPath = none) w := by
  refine ⟨trivial, fun _ _ => ⟨trivial, fun _ _ => ?_⟩⟩
  show cwp _ A _ (removeQuiet wd.markerPath >>= fun _ => _) _ _
  refine wp_removeQuiet trivial fun w₁ hs₁ hgone₁ => ?_
  have hnone₁ := hgone₁.resolve_right fun hf => hremove _ hf.1
  -- Whatever the report, the file stays removed.
  have hreport {v : World β} (hv : v.files wd.markerPath = none) :
      cwp (hostMachine host) A (fun _ => True)
        (UpdateWatchdog.report "confirmed" wd.marker.fromVersion wd.marker.toVersion "ok")
        (fun r v => r = .ok () ∧ v.files wd.markerPath = none) v := by
    rw [← Prog.bind_ret (UpdateWatchdog.report ..)]
    exact wp_report trivial ⟨trivial, rfl, hv⟩
  split
  · refine wp_removeQuiet trivial fun w₂ hs₂ hgone₂ => hreport ?_
    have hnone₂ := hgone₂.resolve_right fun hf => hremove _ hf.1
    by_cases hp : wd.markerPath = wd.marker.prevBinary
    · rw [hp]
      exact hnone₂
    · rw [hs₂.files (by simpa using hp)]
      exact hnone₁
  · exact hreport hnone₁

/-- A report of a rollback removes the marker, unless the conversion of the record throws: then
nothing has changed. -/
theorem reportRolledBack_removes (hremove : ∀ p, ¬ CanFail A (.remove p)) :
    cwp (hostMachine host) A (fun _ => True) wd.reportRolledBack
      (fun r v => r = .ok () ∧ v.files wd.markerPath = none ∧
          (¬ w.RevertedThrows wd.stateDir ∨ CanFail A (.read (revertedFile wd.stateDir))) ∨
        r = .error .typeError ∧ v = w ∧ w.RevertedThrows wd.stateDir ∧
          Readable A (revertedFile wd.stateDir)) w := by
  refine ⟨trivial, fun _ _ => ?_⟩
  show cwp _ A _ (lastReverted wd.stateDir >>= fun rv => _) _ w
  refine wp_lastReverted trivial (fun hok rv => ?_) fun hthrows hread =>
    .inr ⟨rfl, rfl, hthrows, hread⟩
  refine wp_report trivial ?_
  rw [← Prog.bind_ret (removeQuiet _)]
  refine wp_removeQuiet trivial fun w₁ hs hgone => ⟨trivial, .inl ⟨rfl, ?_, hok⟩⟩
  exact hgone.resolve_right fun hf => hremove _ hf.1

end Rules

/-! ### A start that comes to `STREAMS_READY` -/

/-- The watchdog of a process that starts and comes to `STREAMS_READY` before any deadline. The
dispatcher swallows an exception of the observer. -/
def readyAfterBoot {β : Type} (stateDir : Path) (version reason : String) :
    SysM β UpdateWatchdog := do
  let wd ← startUp stateDir version
  (wd.onState .streamsReady reason).tryCatch fun _ => .ret wd

section Ready

variable {β : Type} {host : Host β} {A : SysOp β → Choice β → Prop} {w : World β}
  {wd : UpdateWatchdog} {stateDir : Path} {version reason : String}

/-- A watchdog with nothing to do performs nothing when the client is ready. -/
theorem ready_of_idle (harmed : wd.armed = false) (hreport : wd.reportPending = false) :
    ((wd.onState .streamsReady reason).tryCatch fun _ => .ret wd : SysM β UpdateWatchdog) =
      .ret wd := by
  rw [UpdateWatchdog.onState_eq, if_pos rfl, if_neg (by simp [hreport]), if_neg (by simp [harmed])]
  rfl

/-- An armed watchdog confirms, and the marker is gone. -/
theorem ready_of_armed (hremove : ∀ p, ¬ CanFail A (.remove p)) (hfresh : w.proc.resolved = false)
    (harmed : wd.armed = true) (hreport : wd.reportPending = false) :
    cwp (hostMachine host) A (fun _ => True)
      ((wd.onState .streamsReady reason).tryCatch fun _ => .ret wd)
      (fun _ v => v.files wd.markerPath = none) w := by
  rw [UpdateWatchdog.onState_eq, if_pos rfl, if_neg (by simp [hreport]), if_pos harmed]
  refine cwp_tryCatch ?_
  unfold UpdateWatchdog.claimConfirm
  refine wp_claimResolution_of_free hfresh trivial ?_
  simp only [Bool.not_true, Bool.false_eq_true, if_false]
  refine cwp_bind (cwp_mono (confirm_removes hremove) (fun _ h => h) ?_)
  rintro r v - ⟨rfl, hv⟩
  exact ⟨trivial, hv⟩

/-- A watchdog with a report to make makes it, and the marker is gone, unless the record throws. -/
theorem ready_of_report (host : Host β) (reason : String)
    (hremove : ∀ p, ¬ CanFail A (.remove p)) (hfresh : w.proc.resolved = false)
    (hreport : wd.reportPending = true) :
    cwp (hostMachine host) A (fun _ => True)
      ((wd.onState .streamsReady reason).tryCatch fun _ => .ret wd)
      (fun r v => (∃ wd', r = .ok wd') ∧ (v.files wd.markerPath = none ∧
          (¬ w.RevertedThrows wd.stateDir ∨ CanFail A (.read (revertedFile wd.stateDir))) ∨
        v.files = w.files ∧ w.RevertedThrows wd.stateDir ∧
          Readable A (revertedFile wd.stateDir))) w := by
  rw [UpdateWatchdog.onState_eq, if_pos rfl, if_pos hreport]
  refine cwp_tryCatch ?_
  unfold UpdateWatchdog.claimReport
  refine wp_claimResolution_of_free hfresh trivial ?_
  simp only [Bool.not_true, Bool.false_eq_true, if_false]
  refine cwp_bind (cwp_mono (reportRolledBack_removes hremove) (fun _ h => h) ?_)
  rintro r v - (⟨rfl, hv, hok⟩ | ⟨rfl, rfl, hthrows⟩)
  · exact ⟨trivial, ⟨_, rfl⟩, .inl ⟨hv, hok⟩⟩
  · exact ⟨trivial, ⟨_, rfl⟩, .inr ⟨rfl, hthrows⟩⟩

/-- There is no marker to act on: no file, or a content without one, or one of the phase
`none`. -/
def Unusable (w : World β) (stateDir : Path) : Prop :=
  ∀ content, w.files (stateFile stateDir) = some content →
    content.marker = .ok none ∨ ∃ m, content.marker = .ok (some m) ∧ m.phase = .none

/-- A start that cannot read a marker, or finds none to act on, changes no file. -/
theorem readyAfterBoot_idle
    (h : ¬ Readable A (stateFile stateDir) ∨ Unusable w stateDir) :
    cwp (hostMachine host) A (fun _ => True) (readyAfterBoot stateDir version reason)
      (fun r v => (∃ wd, r = .ok wd) ∧ v = w) w := by
  -- No marker, or one without a phase: the boot check passes it over and the watchdog has nothing
  -- to do.
  have hmarker {marker : Option UpdateMarker}
      (hm : marker = none ∨ ∃ m, marker = some m ∧ m.phase = .none) :
      decideBoot marker version = { action := .cleanStart, detail := "no update marker" } ∧
        (UpdateWatchdog.ofMarker stateDir version marker).armed = false ∧
        (UpdateWatchdog.ofMarker stateDir version marker).reportPending = false := by
    rcases hm with rfl | ⟨m, rfl, hm⟩
    · exact ⟨rfl, rfl, rfl⟩
    · simp [decideBoot, UpdateWatchdog.ofMarker, hm]
  have hread : Readable A (stateFile stateDir) →
      w.marker stateDir = none ∨ ∃ m, w.marker stateDir = some m ∧ m.phase = .none := by
    intro hread
    unfold World.marker
    cases hfile : w.files (stateFile stateDir) with
    | none => exact .inl rfl
    | some content =>
      rcases h.resolve_left (fun hno => hno hread) content hfile with hc | ⟨m, hc, hm⟩
      · exact .inl (by simp [hc, Except.toOption])
      · exact .inr ⟨m, by simp [hc, Except.toOption], hm⟩
  have hnone := hmarker (.inl rfl)
  have hthrow : Readable A (stateFile stateDir) → ∀ content e,
      w.files (stateFile stateDir) = some content → content.marker ≠ .error e := by
    intro hread content e hfile he
    rcases h.resolve_left (fun hno => hno hread) content hfile with hc | ⟨m, hc, -⟩ <;>
      rw [hc] at he <;> cases he
  have create : cwp (hostMachine host) A (fun _ => True)
      (UpdateWatchdog.create stateDir version >>= fun wd =>
        (wd.onState .streamsReady reason).tryCatch fun _ => .ret wd)
      (fun r v => (∃ wd, r = .ok wd) ∧ v = w) w := by
    have idle {marker : Option UpdateMarker}
        (hm : (UpdateWatchdog.ofMarker stateDir version marker).armed = false ∧
          (UpdateWatchdog.ofMarker stateDir version marker).reportPending = false) :
        cwp (hostMachine host) A (fun _ => True)
          (((UpdateWatchdog.ofMarker stateDir version marker).onState .streamsReady
            reason).tryCatch fun _ => .ret (UpdateWatchdog.ofMarker stateDir version marker))
          (fun r v => (∃ wd, r = .ok wd) ∧ v = w) w := by
      rw [ready_of_idle hm.1 hm.2]
      exact ⟨trivial, ⟨_, rfl⟩, rfl⟩
    unfold UpdateWatchdog.create
    rw [Prog.bind_assoc]
    refine wp_readMarkerFile_of_readable trivial (fun hr => ?_) (fun _ => ?_)
      fun hr content e hfile he => absurd he (hthrow hr content e hfile)
    · exact idle (hmarker (hread hr)).2
    · exact idle hnone.2
  -- The marker is read twice, by the boot check and by the watchdog.
  unfold readyAfterBoot startUp checkBoot
  rw [Prog.bind_assoc, Prog.bind_assoc]
  refine wp_readMarkerFile_of_readable trivial (fun hr => ?_) (fun _ => ?_)
    fun hr content e hfile he => absurd he (hthrow hr content e hfile)
  · rw [(hmarker (hread hr)).1]
    exact create
  · rw [hnone.1]
    exact create

/-- The rest of a start once the marker is gone. -/
theorem created_absent (h : w.files (stateFile stateDir) = none) :
    cwp (hostMachine host) A (fun _ => True)
      (UpdateWatchdog.create stateDir version >>= fun wd =>
        (wd.onState .streamsReady reason).tryCatch fun _ => .ret wd)
      (fun _ v => v.files (stateFile stateDir) = none) w := by
  have hidle : cwp (hostMachine host) A (fun _ => True)
      (((UpdateWatchdog.ofMarker stateDir version none).onState .streamsReady reason).tryCatch
        fun _ => .ret (UpdateWatchdog.ofMarker stateDir version none))
      (fun _ v => v.files (stateFile stateDir) = none) w := by
    rw [ready_of_idle rfl rfl]
    exact ⟨trivial, h⟩
  unfold UpdateWatchdog.create
  rw [Prog.bind_assoc]
  refine wp_readMarkerFile trivial ?_ (fun _ => hidle) fun content e hfile => ?_
  · rw [World.marker_of_none h]
    exact hidle
  · rw [h] at hfile
    cases hfile

/-- The rest of a start with a marker of the running version on trial. -/
theorem created_pending (hremove : ∀ p, ¬ CanFail A (.remove p))
    (hread : ¬ CanFail A (.read (stateFile stateDir))) (hfresh : w.proc.resolved = false)
    {m : UpdateMarker} (hm : w.marker stateDir = some m) (hp : m.phase = .pending)
    (hversion : version = m.toVersion) :
    cwp (hostMachine host) A (fun _ => True)
      (UpdateWatchdog.create stateDir version >>= fun wd =>
        (wd.onState .streamsReady reason).tryCatch fun _ => .ret wd)
      (fun r v => ∀ wd, r = .ok wd → v.files (stateFile stateDir) = none) w := by
  have harmed : (UpdateWatchdog.ofMarker stateDir version (some m)).armed = true :=
    UpdateWatchdog.armed_ofMarker.mpr ⟨m, rfl, hp, hversion⟩
  have hreport : (UpdateWatchdog.ofMarker stateDir version (some m)).reportPending = false := by
    simp [UpdateWatchdog.ofMarker, hp, hversion]
  unfold UpdateWatchdog.create
  rw [Prog.bind_assoc]
  refine wp_readMarkerFile trivial ?_ (fun hf => absurd hf hread) fun _ _ _ _ _ h => by cases h
  rw [hm]
  refine cwp_mono (ready_of_armed hremove hfresh harmed hreport) (fun _ h => h) ?_
  intro r v _ hv wd _
  rwa [UpdateWatchdog.markerPath, UpdateWatchdog.stateDir_ofMarker] at hv

/-- A start with a pending marker, for this or another version. -/
theorem readyAfterBoot_pending (hremove : ∀ p, ¬ CanFail A (.remove p))
    (hread : ¬ CanFail A (.read (stateFile stateDir))) (hfresh : w.proc.resolved = false)
    {m : UpdateMarker} (hm : w.marker stateDir = some m) (hp : m.phase = .pending) :
    cwp (hostMachine host) A (fun _ => True) (readyAfterBoot stateDir version reason)
      (fun r v => ∀ wd, r = .ok wd → v.files (stateFile stateDir) = none) w := by
  have absent {v : World β} (hv : v.files (stateFile stateDir) = none) :
      cwp (hostMachine host) A (fun _ => True)
        (UpdateWatchdog.create stateDir version >>= fun wd =>
          (wd.onState .streamsReady reason).tryCatch fun _ => .ret wd)
        (fun r v => ∀ wd, r = .ok wd → v.files (stateFile stateDir) = none) v :=
    cwp_mono (created_absent hv) (fun _ h => h) fun r v _ hv wd _ => hv
  unfold readyAfterBoot startUp checkBoot
  rw [Prog.bind_assoc, Prog.bind_assoc]
  refine wp_readMarkerFile trivial ?_ (fun hf => absurd hf hread) fun _ _ _ _ => nofun
  rw [hm]
  by_cases hversion : version = m.toVersion
  · by_cases hbudget : m.counted.attempts > WATCHDOG_MAX_ATTEMPTS
    · -- The budget is used up: the agent proceeds only when nothing was restored.
      rw [decideBoot_rollback hp hversion hbudget]
      simp only [actOnBoot, Prog.bind_assoc]
      obtain ⟨L, rfl⟩ : ∃ L : Layout, L.stateDir = stateDir := ⟨.withStateDir stateDir, rfl⟩
      refine wp_doRollback trivial (fun _ => ?_) (fun _ => nofun) (fun _ _ _ => trivial)
        fun v _ _ _ => ⟨trivial, nofun⟩
      exact created_pending hremove hread hfresh hm hp hversion
    · rw [decideBoot_arm hp hversion hbudget]
      -- Armed: the attempt is counted first, which may fail, and both markers are pending.
      simp only [actOnBoot, Prog.bind_assoc]
      refine wp_writeAtomic (fun _ _ => trivial) (fun _ _ => trivial) (fun _ v hs => ?_)
        fun v hr _ => ?_
      · refine created_pending hremove hread ?_ (m := m) ?_ hp hversion
        · rw [hs.shared]
          exact hfresh
        · rw [hs.marker (by simpa using (tempPath_ne_stateFile _ _ stateDir).symm)]
          exact hm
      · refine created_pending hremove hread ?_ (m := m.counted) ?_ hp hversion
        · rw [hr.scratch.shared]
          exact hfresh
        · exact World.marker_of_files hr.files_target
  -- A marker of another version is removed on the spot.
  · rw [decideBoot_of_ne hp hversion]
    simp only [actOnBoot, Prog.bind_assoc]
    refine wp_removeQuiet trivial fun v hs hgone => ?_
    have hnone := hgone.resolve_right fun hf => hremove _ hf.1
    split
    · rw [Prog.bind_assoc]
      refine wp_removeQuiet trivial fun v' hs' hgone' => absent ?_
      have hnone' := hgone'.resolve_right fun hf => hremove _ hf.1
      by_cases hpath : stateFile stateDir = m.prevBinary
      · rw [hpath]
        exact hnone'
      · rw [hs'.files (by simpa using hpath)]
        exact hnone
    · exact absent hnone

/-- A start with a marker that owes a report. -/
theorem readyAfterBoot_rolledBack (hremove : ∀ p, ¬ CanFail A (.remove p))
    (hread : ¬ CanFail A (.read (stateFile stateDir))) (hfresh : w.proc.resolved = false)
    {m : UpdateMarker} (hm : w.marker stateDir = some m) (hp : m.phase = .rolledBack)
    (hcontent : ∀ content e, w.files (stateFile stateDir) = some content →
      content.marker ≠ .error e) :
    cwp (hostMachine host) A (fun _ => True) (readyAfterBoot stateDir version reason)
      (fun r v => (∃ wd, r = .ok wd) ∧ (v.files (stateFile stateDir) = none ∧
          (¬ w.RevertedThrows stateDir ∨ CanFail A (.read (revertedFile stateDir))) ∨
        v.files = w.files ∧ w.RevertedThrows stateDir ∧ Readable A (revertedFile stateDir))) w := by
  have hreport : (UpdateWatchdog.ofMarker stateDir version (some m)).reportPending = true := by
    simp [UpdateWatchdog.ofMarker, hp]
  -- The marker is read twice, by the boot check and by the watchdog, and stays as it is.
  unfold readyAfterBoot startUp checkBoot
  rw [Prog.bind_assoc, Prog.bind_assoc]
  refine wp_readMarkerFile trivial ?_ (fun hf => absurd hf hread)
    fun content e hfile he => absurd he (hcontent content e hfile)
  rw [hm, decideBoot_rolledBack hp]
  show cwp _ A _ (UpdateWatchdog.create stateDir version >>= _) _ w
  unfold UpdateWatchdog.create
  rw [Prog.bind_assoc]
  refine wp_readMarkerFile trivial ?_ (fun hf => absurd hf hread)
    fun content e hfile he => absurd he (hcontent content e hfile)
  rw [hm]
  have hready := ready_of_report host reason hremove hfresh hreport
  simp only [UpdateWatchdog.markerPath, UpdateWatchdog.stateDir_ofMarker] at hready
  exact hready

/-- A start with a marker whose conversion throws does not proceed. -/
theorem readyAfterBoot_throws (hread : ¬ CanFail A (.read (stateFile stateDir)))
    {content : Content β} {e : JsonError} (hfile : w.files (stateFile stateDir) = some content)
    (he : content.marker = .error e) :
    cwp (hostMachine host) A (fun _ => True) (readyAfterBoot stateDir version reason)
      (fun r _ => ∀ wd, r ≠ .ok wd) w := by
  unfold readyAfterBoot startUp checkBoot readMarkerFile
  simp only [Prog.bind_assoc]
  refine wp_readFile trivial ?_ fun hf => absurd hf hread
  rw [hfile]
  cases hparse : content.parse with
  | none => simp [Content.marker, hparse] at he
  | some j =>
    have hj : UpdateMarker.fromJson j = .error e := by simpa [Content.marker, hparse] using he
    simp only [parseRecord, hparse, hj]
    exact ⟨trivial, fun _ h => by cases h⟩

/-- The marker file is absent, or it can be read and its content throws, is a pending marker, or
is a rolled-back one whose report can be made. -/
def Clearable (A : SysOp β → Choice β → Prop) (stateDir : Path) (w : World β) : Prop :=
  ∀ content, w.files (stateFile stateDir) = some content →
    ¬ CanFail A (.read (stateFile stateDir)) ∧
      ((∃ e, content.marker = .error e) ∨
        ∃ m, content.marker = .ok (some m) ∧ (m.phase = .pending ∨
          m.phase = .rolledBack ∧
            (w.RevertedThrows stateDir → ¬ Readable A (revertedFile stateDir))))

/-- An environment that allows less, with an answer of its own to one operation. -/
private theorem answers_restrict (hA : Answers (I := sysInterface β) A) {o : SysOp β}
    {P : Choice β → Prop} (ho : ∃ c, A o c ∧ P c) :
    Answers (I := sysInterface β) fun o' c => A o' c ∧ (o' = o → P c) := by
  intro o'
  by_cases h : o' = o
  · subst h
    obtain ⟨c, hc, hP⟩ := ho
    exact ⟨c, hc, fun _ => hP⟩
  · obtain ⟨c, hc⟩ := hA o'
    exact ⟨c, hc, fun h' => absurd h' h⟩

end Ready

/-- Where removals work, every start that proceeds and comes to `STREAMS_READY` leaves no
`update.state` behind exactly when there was none, or it can be read and holds something to act
on: a pending marker, or a rolled-back one whose record does not throw. A content that throws
stops the start. -/
theorem markerCleared_iff {β : Type} (host : Host β) {A : SysOp β → Choice β → Prop} {w : World β}
    (stateDir : Path) (version reason : String) (hA : Answers (I := sysInterface β) A)
    (hremove : ∀ p, ¬ CanFail A (.remove p)) (hfresh : w.proc.resolved = false) :
    Ensures (hostMachine host) A (readyAfterBoot stateDir version reason)
        (fun r v => ∀ wd, r = .ok wd → v.files (stateFile stateDir) = none) w ↔
      Clearable A stateDir w := by
  constructor
  · intro hens content hfile
    -- A start that ends with the file still there refutes the left side.
    have kept {r : Except Exc UpdateWatchdog} {v : World β}
        (h : (∃ wd, r = .ok wd) ∧ v.files = w.files) :
        ¬ ∀ wd, r = .ok wd → v.files (stateFile stateDir) = none := by
      rintro hnone
      obtain ⟨⟨wd, hr⟩, hv⟩ := h
      have := hnone wd hr
      rw [hv, hfile] at this
      cases this
    have idle {A' : SysOp β → Choice β → Prop} (hA' : Answers (I := sysInterface β) A')
      (hle : ∀ o c, A' o c → A o c)
        (h : ¬ Readable A' (stateFile stateDir) ∨ Unusable w stateDir) : False :=
      not_ensures hA' hle (readyAfterBoot_idle h)
        (fun r v h => kept ⟨h.1, by rw [h.2]⟩) hens
    have hread : ¬ CanFail A (.read (stateFile stateDir)) := by
      rintro ⟨c, e, hc, he⟩
      refine idle (answers_restrict hA (P := fun c => c.error ≠ none) ⟨c, hc, by simp [he]⟩)
        (fun o c h => h.1) (.inl ?_)
      rintro ⟨c, hc, hok⟩
      exact hc.2 rfl hok
    refine ⟨hread, ?_⟩
    have unusable (h : content.marker = .ok none ∨
        ∃ m, content.marker = .ok (some m) ∧ m.phase = .none) : False :=
      idle hA (fun _ _ h => h) (.inr fun content' hfile' => by
        obtain rfl : content = content' := Option.some.inj (hfile.symm.trans hfile')
        exact h)
    cases hmarker : content.marker with
    | error e => exact .inl ⟨e, rfl⟩
    | ok marker =>
      cases marker with
      | none => exact (unusable (.inl hmarker)).elim
      | some m =>
        refine .inr ⟨m, rfl, ?_⟩
        cases hp : m.phase with
        | none => exact (unusable (.inr ⟨m, hmarker, hp⟩)).elim
        | pending => exact .inl rfl
        | rolledBack =>
          refine .inr ⟨rfl, ?_⟩
          rintro hthrows ⟨c, hc, hok⟩
          -- The run that reads the record throws, and keeps the marker.
          have hm : w.marker stateDir = some m := by
            simp [World.marker, hfile, hmarker, Except.toOption]
          have hless : Answers (I := sysInterface β) fun o c => A o c ∧
              (o = .read (revertedFile stateDir) → c.error = none) :=
            answers_restrict hA ⟨c, hc, hok⟩
          refine not_ensures hless (fun o c h => h.1)
            (readyAfterBoot_rolledBack ?_ ?_ hfresh hm hp ?_) (fun r v h => kept ⟨h.1, ?_⟩) hens
          · rintro p ⟨c, e, hc, he⟩
            exact hremove p ⟨c, e, hc.1, he⟩
          · rintro ⟨c, e, hc, he⟩
            exact hread ⟨c, e, hc.1, he⟩
          · intro content' e hfile' he
            obtain rfl : content = content' := Option.some.inj (hfile.symm.trans hfile')
            rw [hmarker] at he
            cases he
          · rcases h.2 with ⟨-, hno⟩ | ⟨hsame, -⟩
            · rcases hno with hno | ⟨c, e, hc, he⟩
              · exact absurd hthrows hno
              · have := hc.2 rfl
                rw [he] at this
                cases this
            · exact hsame
  · intro hclear
    cases hfile : w.files (stateFile stateDir) with
    | none =>
      refine ensures_of_cwp (cwp_mono (readyAfterBoot_idle (.inr fun content h => ?_))
        (fun _ h => h) ?_)
      · rw [hfile] at h
        cases h
      · rintro r v - ⟨-, rfl⟩ wd -
        exact hfile
    | some content =>
      obtain ⟨hread, hcontent⟩ := hclear content hfile
      rcases hcontent with ⟨e, he⟩ | ⟨m, hmarker, hphase⟩
      · exact ensures_of_cwp (cwp_mono (readyAfterBoot_throws hread hfile he) (fun _ h => h)
          fun r v _ h wd hr => absurd hr (h wd))
      · have hm : w.marker stateDir = some m := by
          simp [World.marker, hfile, hmarker, Except.toOption]
        rcases hphase with hp | ⟨hp, hrecord⟩
        · exact ensures_of_cwp (readyAfterBoot_pending hremove hread hfresh hm hp)
        · refine ensures_of_cwp (cwp_mono (readyAfterBoot_rolledBack hremove hread hfresh hm hp ?_)
            (fun _ h => h) ?_)
          · intro content' e hfile' he
            obtain rfl : content = content' := Option.some.inj (hfile.symm.trans hfile')
            rw [hmarker] at he
            cases he
          · rintro r v - ⟨-, h⟩ wd -
            rcases h with ⟨hnone, -⟩ | ⟨-, hthrows, hreadable⟩
            · exact hnone
            · exact absurd hreadable (hrecord hthrows)

/-- The environment where every operation works and answers `ok`. -/
def OnlyOk (_ : SysOp Nat) (c : Choice Nat) : Prop := c = .ok

/-- Where every answer is a success, no operation can fail. -/
theorem not_canFail_onlyOk (o : SysOp Nat) : ¬ CanFail OnlyOk o := by
  rintro ⟨c, e, rfl, he⟩
  cases he

/-- The start of the binary on trial clears its marker. -/
theorem markerCleared_iff_sample :
    Ensures (hostMachine sampleHost) OnlyOk
        (readyAfterBoot Layout.system.stateDir "2" "")
        (fun r v => ∀ wd, r = .ok wd → v.files (stateFile Layout.system.stateDir) = none)
        (sampleTrial Layout.system.install) ↔
      Clearable OnlyOk Layout.system.stateDir (sampleTrial Layout.system.install) :=
  markerCleared_iff sampleHost Layout.system.stateDir "2" "" (fun _ => ⟨.ok, rfl⟩)
    (fun _ => not_canFail_onlyOk _) rfl

/-- The binary 1 with a marker file that is no JSON text. -/
def sampleGarbage : World Nat :=
  .ofFiles (fun p =>
      if p = Layout.system.path .install then some (.image 1)
      else if p = Layout.system.path .state then some (.raw "garbage")
      else none)
    { pid := 1, exe := some Layout.system.install }

/-- A start with such a file proceeds and comes to `STREAMS_READY`, and the file is still there. -/
theorem not_markerCleared_sample :
    ((hostMachine sampleHost).after (List.replicate 8 .ok)
        (readyAfterBoot Layout.system.stateDir "1" "", sampleGarbage)).1.result =
      some (.ok (UpdateWatchdog.ofMarker Layout.system.stateDir "1" none)) ∧
    (((hostMachine sampleHost).after (List.replicate 8 .ok)
        (readyAfterBoot Layout.system.stateDir "1" "", sampleGarbage)).2.files
      (stateFile Layout.system.stateDir)).isSome = true := by
  decide +kernel

end ThinrAgent
