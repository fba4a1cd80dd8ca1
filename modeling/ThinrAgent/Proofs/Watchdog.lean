import ThinrAgent.Proofs.Apply
import ThinrAgent.Runtime.UpdateWatchdog

/-!
# `ThinrAgent.Proofs.Watchdog`: what the watchdog does to the files

The rules of `doRollback` and of the small programs of the watchdog. A rollback renames the
backup to the path of the running executable, and then writes two records.
`Layout.Recording` relates the state after the rename to every state after it: only the
records and their temporary files change, and each record is the old one or the new one.
-/

set_option autoImplicit false

namespace ThinrAgent

open Effects

/-! ### The marker on disk -/

section Marker
variable {β : Type}

/-- The marker in a file's text, or the exception its conversion throws. -/
def Content.marker (content : Content β) : Except JsonError (Option UpdateMarker) :=
  match content.parse with
  | none => .ok none
  | some j => UpdateMarker.fromJson j

/-- A marker that was written is read back as it was. -/
@[simp] theorem Content.marker_toJson (m : UpdateMarker) :
    (Content.json m.toJson : Content β).marker = .ok (some m) :=
  UpdateMarker.fromJson_toJson m

/-- The marker that a reader of `update.state` finds. A file that is absent or does not parse gives
none. -/
def World.marker (w : World β) (stateDir : Path) : Option UpdateMarker :=
  match w.files (stateFile stateDir) with
  | none => none
  | some content => content.marker.toOption.join

/-- The marker is the one whose text is in the state file. -/
theorem World.marker_of_files {w : World β} {stateDir : Path} {m : UpdateMarker}
    (h : w.files (stateFile stateDir) = some (.json m.toJson)) : w.marker stateDir = some m := by
  simp [World.marker, h, Except.toOption]

/-- A step that does not write the marker file keeps the marker. -/
theorem World.Scratch.marker {X : List Path} {w w' : World β} {stateDir : Path}
    (h : World.Scratch X w w') (hX : stateFile stateDir ∉ X) :
    w'.marker stateDir = w.marker stateDir := by
  rw [World.marker, World.marker, h.files hX]

/-- The record that a reader of `update.reverted` finds. A file that is absent or does not parse
gives none. -/
def World.reverted (w : World β) (stateDir : Path) : Option RevertedInfo :=
  match (w.files (revertedFile stateDir)).bind Content.parse with
  | none => none
  | some j => (RevertedInfo.fromJson j).toOption.join

/-- A step that touches other files only keeps the record of the last rollback. -/
theorem World.Scratch.reverted {X : List Path} {w w' : World β} {stateDir : Path}
    (h : World.Scratch X w w') (hX : revertedFile stateDir ∉ X) :
    w'.reverted stateDir = w.reverted stateDir := by
  rw [World.reverted, World.reverted, h.files hX]

/-- The conversion of `update.reverted` throws: its text parses, but a field has a type that the
conversion does not expect. -/
def World.RevertedThrows (w : World β) (stateDir : Path) : Prop :=
  ∃ j e, (w.files (revertedFile stateDir)).bind Content.parse = some j ∧
    RevertedInfo.fromJson j = .error e

/-- Without a state file there is no marker. -/
theorem World.marker_of_none {w : World β} {stateDir : Path}
    (h : w.files (stateFile stateDir) = none) : w.marker stateDir = none := by
  rw [World.marker, h]

end Marker

namespace Layout

variable {β : Type} (L : Layout)

/-- The files the process `pid` writes when it records a rollback. -/
def records (pid : Nat) : List Path :=
  [L.path .state, L.path .reverted, L.path (.stateTmp pid), L.path (.revertedTmp pid)]

/-- The text of `update.state` after a rollback of `m`. -/
def doneContent (m : UpdateMarker) : Content β := .json m.done.toJson

/-- The text of `update.reverted` after a rollback of `m`. -/
def revertedContent (m : UpdateMarker) (reason : String) (at_ : Int64) : Content β :=
  .json (m.reverted reason at_).toJson

/-- From `w` to `w'` a rollback of `m` was being recorded by a process whose clock shows a time
in `T`: each record is the old one, or its write has landed. -/
structure RecordingAt (T : Int64 → Prop) (m : UpdateMarker) (reason : String) (w w' : World β) :
    Prop where
  scratch : World.Scratch (L.records w.proc.pid) w w'
  state :
    w'.files (L.path .state) = w.files (L.path .state) ∧
        ¬ World.RenamedSince w w' (L.path (.stateTmp w.proc.pid)) (L.path .state) ∨
      w'.files (L.path .state) = some (doneContent m) ∧
        World.RenamedSince w w' (L.path (.stateTmp w.proc.pid)) (L.path .state)
  reverted :
    w'.files (L.path .reverted) = w.files (L.path .reverted) ∧
        ¬ World.RenamedSince w w' (L.path (.revertedTmp w.proc.pid)) (L.path .reverted) ∨
      (∃ t, T t ∧ w'.files (L.path .reverted) = some (revertedContent m reason t)) ∧
        World.RenamedSince w w' (L.path (.revertedTmp w.proc.pid)) (L.path .reverted)

/-- From `w` to `w'` a rollback of `m` was being recorded, at any time. -/
abbrev Recording (m : UpdateMarker) (reason : String) (w w' : World β) : Prop :=
  L.RecordingAt (fun _ => True) m reason w w'

/-- The times that a clock in the environment `A` can show. -/
def Shown (A : SysOp β → Choice β → Prop) (t : Int64) : Prop :=
  ∃ c, A .time c ∧ t = Int64.ofInt c.number

/-- Both records of a rollback of `m` are in place, and no power cut takes them back. -/
def Recorded (m : UpdateMarker) (reason : String) (w : World β) : Prop :=
  w.Durable (L.path .state) (doneContent m) ∧
    ∃ t, w.Durable (L.path .reverted) (revertedContent m reason t)

/-- The same, with a time that the environment `A` can show. -/
def RecordedIn (A : SysOp β → Choice β → Prop) (m : UpdateMarker) (reason : String)
    (w : World β) : Prop :=
  w.Durable (L.path .state) (doneContent m) ∧
    ∃ c, A .time c ∧
      w.Durable (L.path .reverted) (revertedContent m reason (Int64.ofInt c.number))

variable {L} {T : Int64 → Prop} {m : UpdateMarker} {reason : String} {w w₁ w' : World β}

/-- With the time of the record left out. -/
theorem RecordedIn.recorded {A : SysOp β → Choice β → Prop} (h : L.RecordedIn A m reason w) :
    L.Recorded m reason w := by
  obtain ⟨hstate, c, -, hreverted⟩ := h
  exact ⟨hstate, _, hreverted⟩

/-- The times the record may have can be more. -/
theorem RecordingAt.mono {T' : Int64 → Prop} (h : L.RecordingAt T m reason w w')
    (hT : ∀ t, T t → T' t) : L.RecordingAt T' m reason w w' := by
  refine ⟨h.scratch, h.state, h.reverted.imp_right ?_⟩
  rintro ⟨⟨t, ht, hfile⟩, hlanded⟩
  exact ⟨⟨t, hT t ht, hfile⟩, hlanded⟩

/-- With the time of the record left out. -/
theorem RecordingAt.recording (h : L.RecordingAt T m reason w w') :
    L.Recording m reason w w' :=
  h.mono fun _ _ => trivial

/-- Writing neither record changes nothing that is recorded. -/
theorem RecordingAt.of_scratch {X : List Path} (h : L.RecordingAt T m reason w w₁)
    (hs : World.Scratch X w₁ w') (hX : X ⊆ L.records w.proc.pid)
    (hstate : L.path .state ∉ X) (hreverted : L.path .reverted ∉ X) :
    L.RecordingAt T m reason w w' := by
  have hrenamed {p q : Path} (hq : q ∉ X) :
      World.RenamedSince w w' p q ↔ World.RenamedSince w w₁ p q := by
    rw [h.scratch.renamedSince_trans hs]
    exact or_iff_left fun hr => hq (hs.mem_of_renamedSince hr).2
  refine ⟨h.scratch.trans (hs.mono hX), ?_, ?_⟩
  · rw [hs.files hstate, hrenamed hstate]
    exact h.state
  · rw [hs.files hreverted, hrenamed hreverted]
    exact h.reverted

/-- At the beginning of the recording nothing has changed. -/
theorem RecordingAt.refl (m : UpdateMarker) (reason : String) (w : World β) :
    L.RecordingAt T m reason w w :=
  ⟨World.Scratch.refl _ w, .inl ⟨rfl, World.not_renamedSince_self⟩,
    .inl ⟨rfl, World.not_renamedSince_self⟩⟩

/-- The write of `update.reverted` has landed, at a time that the clock can show. -/
theorem RecordingAt.of_reverted {at_ : Int64} (h : L.RecordingAt T m reason w w₁)
    (hr : World.Replaced (L.path (.revertedTmp w.proc.pid)) (L.path .reverted)
      (revertedContent m reason at_) w₁ w') (hat : T at_) : L.RecordingAt T m reason w w' := by
  have hstate : L.path .state ∉ [L.path (.revertedTmp w.proc.pid), L.path .reverted] := by simp
  refine ⟨h.scratch.trans (hr.scratch.mono (by simp [records])), ?_,
    .inr ⟨⟨at_, hat, hr.files_target⟩,
       (h.scratch.renamedSince_trans hr.scratch).mpr (.inr hr.renamed)⟩⟩
  rw [hr.scratch.files hstate, h.scratch.renamedSince_trans hr.scratch,
    or_iff_left fun hq => hstate (hr.scratch.mem_of_renamedSince hq).2]
  exact h.state

/-- The write of `update.state` has landed, with the marker of a rollback that is done. -/
theorem RecordingAt.of_state (h : L.RecordingAt T m reason w w₁)
    (hr : World.Replaced (L.path (.stateTmp w.proc.pid)) (L.path .state) (doneContent m) w₁ w') :
    L.RecordingAt T m reason w w' := by
  have hreverted : L.path .reverted ∉ [L.path (.stateTmp w.proc.pid), L.path .state] := by simp
  refine ⟨h.scratch.trans (hr.scratch.mono (by simp [records])),
    .inr ⟨hr.files_target, (h.scratch.renamedSince_trans hr.scratch).mpr (.inr hr.renamed)⟩, ?_⟩
  rw [hr.scratch.files hreverted, h.scratch.renamedSince_trans hr.scratch,
    or_iff_left fun hq => hreverted (hr.scratch.mem_of_renamedSince hq).2]
  exact h.reverted

/-- Making the directory durable comes before recording, and changes no content. -/
theorem RecordingAt.of_sync (hs : World.Scratch [] w w₁) (h : L.RecordingAt T m reason w₁ w') :
    L.RecordingAt T m reason w w' := by
  have hrenamed {p q : Path} : World.RenamedSince w w' p q ↔ World.RenamedSince w₁ w' p q := by
    rw [hs.renamedSince_trans h.scratch]
    exact or_iff_right fun hr => List.not_mem_nil (hs.mem_of_renamedSince hr).1
  refine ⟨(hs.mono (List.nil_subset _)).trans (hs.pid ▸ h.scratch), ?_, ?_⟩
  · rw [← hs.files (q := L.path .state) List.not_mem_nil, hrenamed, ← hs.pid]
    exact h.state
  · rw [← hs.files (q := L.path .reverted) List.not_mem_nil, hrenamed, ← hs.pid]
    exact h.reverted

end Layout

section Rules

variable {β α : Type} {host : Host β} {A : SysOp β → Choice β → Prop} {J : World β → Prop}
  {Q : Except Exc α → World β → Prop} {w : World β} {L : Layout}

/-- The rule of a removal whose failure is ignored: the file is gone, or the removal can fail and
nothing has changed. -/
theorem wp_removeQuiet {p : Path} {k : Unit → SysM β α} (hJ : J w)
    (hk : ∀ w', World.Scratch [p] w w' → (w'.files p = none ∨ CanFail A (.remove p) ∧ w' = w) →
      cwp (hostMachine host) A J (k ()) Q w') :
    cwp (hostMachine host) A J (removeQuiet p >>= k) Q w := by
  unfold removeQuiet
  rw [Prog.bind_assoc]
  refine wp_fsRemove hJ fun r w' hs hgone hkept => hk w' hs ?_
  cases r with
  | none => exact .inl (hgone rfl)
  | some e => exact .inr (hkept (by simp))

/-- The marker file is read as it is, or not at all. -/
theorem wp_readMarkerFile_of_readable {stateDir : Path} {k : Option UpdateMarker → SysM β α}
    (hJ : J w)
    (hok : Readable A (stateFile stateDir) →
      cwp (hostMachine host) A J (k (w.marker stateDir)) Q w)
    (hfail : CanFail A (.read (stateFile stateDir)) → cwp (hostMachine host) A J (k none) Q w)
    (hthrow : Readable A (stateFile stateDir) → ∀ content e,
      w.files (stateFile stateDir) = some content → content.marker = .error e →
        Q (.error .typeError) w) :
    cwp (hostMachine host) A J (readMarkerFile (stateFile stateDir) >>= k) Q w := by
  unfold readMarkerFile
  rw [Prog.bind_assoc]
  refine wp_readFile_of_readable hJ (fun hread => ?_) hfail
  have hok := hok hread
  unfold World.marker at hok
  -- No file and a text that is discarded give no marker. A conversion gives one or throws.
  cases hfile : w.files (stateFile stateDir) with
  | none => simpa [hfile] using hok
  | some content =>
    have hcontent := hthrow hread content
    simp only [hfile, Content.marker] at hok hcontent
    simp only [parseRecord]
    cases hparse : content.parse with
    | none => simpa [hparse, Except.toOption] using hok
    | some j =>
      simp only [hparse] at hok hcontent
      cases hj : UpdateMarker.fromJson j with
      | ok record => simpa [hj, Except.toOption] using hok
      | error e => simpa [hj] using ⟨hJ, hcontent e trivial hj⟩

/-- The rule of the marker's reader: it returns the marker, or none when the read can fail, or it
throws the error that the conversion of the text gives. -/
theorem wp_readMarkerFile {stateDir : Path} {k : Option UpdateMarker → SysM β α} (hJ : J w)
    (hok : cwp (hostMachine host) A J (k (w.marker stateDir)) Q w)
    (hfail : CanFail A (.read (stateFile stateDir)) → cwp (hostMachine host) A J (k none) Q w)
    (hthrow : ∀ content e, w.files (stateFile stateDir) = some content →
      content.marker = .error e → Q (.error .typeError) w) :
    cwp (hostMachine host) A J (readMarkerFile (stateFile stateDir) >>= k) Q w :=
  wp_readMarkerFile_of_readable hJ (fun _ => hok) hfail fun _ => hthrow

/-- `lastReverted` finds the record on disk, or nothing when the file cannot be read. It throws for
a content whose conversion throws. -/
theorem wp_lastReverted_of_readable {stateDir : Path}
    {k : Option RevertedInfo → SysM β α} (hJ : J w)
    (hok : ¬ w.RevertedThrows stateDir → Readable A (revertedFile stateDir) →
      cwp (hostMachine host) A J (k (w.reverted stateDir)) Q w)
    (hfail : CanFail A (.read (revertedFile stateDir)) → cwp (hostMachine host) A J (k none) Q w)
    (hthrow : w.RevertedThrows stateDir → Readable A (revertedFile stateDir) →
      Q (.error .typeError) w) :
    cwp (hostMachine host) A J (lastReverted stateDir >>= k) Q w := by
  unfold lastReverted
  rw [Prog.bind_assoc]
  refine wp_readFile_of_readable hJ (fun hread => ?_) hfail
  have hok (h : ¬ w.RevertedThrows stateDir) := hok h hread
  have hthrow (h : w.RevertedThrows stateDir) := hthrow h hread
  unfold World.reverted at hok
  unfold World.RevertedThrows at hok hthrow
  -- No file and a text that is discarded give no record. A conversion gives one or throws.
  cases hfile : w.files (revertedFile stateDir) with
  | none => simpa [hfile] using hok
  | some content =>
    simp only [parseRecord]
    cases hparse : content.parse with
    | none => simpa [hfile, hparse] using hok
    | some j =>
      cases hj : RevertedInfo.fromJson j with
      | ok record => simpa [hfile, hparse, hj, Except.toOption] using hok
      | error e => simpa [hfile, hparse, hj] using ⟨hJ, hthrow ⟨j, e, by simp [hfile, hparse], hj⟩⟩

/-- `lastReverted` changes nothing, and throws for a content whose conversion throws. -/
theorem wp_lastReverted {stateDir : Path} {k : Option RevertedInfo → SysM β α} (hJ : J w)
    (hok : ¬ w.RevertedThrows stateDir ∨ CanFail A (.read (revertedFile stateDir)) →
      ∀ rv, cwp (hostMachine host) A J (k rv) Q w)
    (hthrow : w.RevertedThrows stateDir → Readable A (revertedFile stateDir) →
      Q (.error .typeError) w) :
    cwp (hostMachine host) A J (lastReverted stateDir >>= k) Q w :=
  wp_lastReverted_of_readable hJ (fun hno _ => hok (.inl hno) _) (fun hf => hok (.inr hf) _) hthrow

/-- The constructor of the watchdog looks at the marker, and changes nothing. -/
theorem create_spec {stateDir : Path} {version : String} :
    cwp (hostMachine host) A (fun v => v = w) (UpdateWatchdog.create stateDir version)
      (fun r v => v = w ∧ ∀ wd, r = .ok wd →
        wd = UpdateWatchdog.ofMarker stateDir version (w.marker stateDir) ∨
          CanFail A (.read (stateFile stateDir)) ∧
            wd = UpdateWatchdog.ofMarker stateDir version none) w := by
  unfold UpdateWatchdog.create
  refine wp_readMarkerFile rfl ⟨rfl, rfl, ?_⟩ (fun hf => ⟨rfl, rfl, ?_⟩) fun _ _ _ _ =>
    ⟨rfl, by simp⟩
  · rintro wd ⟨rfl⟩
    exact .inl rfl
  · rintro wd ⟨rfl⟩
    exact .inr ⟨hf, rfl⟩

/-- The two writes that record a rollback, from the state after the rename. -/
theorem wp_record {m : UpdateMarker} {reason : String} {k : Unit → SysM β α}
    (hJ : ∀ w', L.RecordingAt (Layout.Shown A) m reason w w' → J w')
    (hk : ∀ w', L.RecordingAt (Layout.Shown A) m reason w w' →
      (Benign A → L.RecordedIn A m reason w') →
      cwp (hostMachine host) A J (k ()) Q w') :
    cwp (hostMachine host) A J (do
      let at_ ← time
      let _ ← writeAtomic (L.path .reverted) (Layout.revertedContent m reason at_) 0o644
      let _ ← writeAtomic (L.path .state) (Layout.doneContent m) 0o644
      k ()) Q w := by
  have h0 : L.RecordingAt (Layout.Shown A) m reason w w := .refl m reason w
  -- The second write, whatever the first one left.
  have mark {w₁ : World β} (h : L.RecordingAt (Layout.Shown A) m reason w w₁)
    (hrev : Benign A → ∃ c, A .time c ∧
      w₁.Durable (L.path .reverted) (Layout.revertedContent m reason (Int64.ofInt c.number))) :
      cwp (hostMachine host) A J (do
        let _ ← writeAtomic (L.path .state) (Layout.doneContent m) 0o644
        k ()) Q w₁ := by
    have htmp {w₂ : World β} (hs : World.Scratch [L.path (.stateTmp w₁.proc.pid)] w₁ w₂) :
        L.RecordingAt (Layout.Shown A) m reason w w₂ :=
      h.of_scratch hs (by simp [Layout.records, h.scratch.pid]) (by simp) (by simp)
    have marked {w₂ : World β} (hr : World.Replaced (tempPath (L.path .state) w₁.proc.pid)
        (L.path .state) (Layout.doneContent m) w₁ w₂) :
        L.RecordingAt (Layout.Shown A) m reason w w₂ := by
      rw [L.tempPath_state, h.scratch.pid] at hr
      exact h.of_state hr
    refine wp_writeAtomic (fun w₂ hs => hJ _ (htmp hs)) (fun w₂ hr => hJ _ (marked hr))
      (fun hf w₂ hs => hk _ (htmp hs) fun hn => absurd hn hf)
      fun w₂ hr hstate => hk _ (marked hr) fun hn => ⟨hstate hn, ?_⟩
    obtain ⟨c, hc, ht⟩ := hrev hn
    exact ⟨c, hc, hr.scratch.durable ht (by rw [L.tempPath_state]; simp)⟩
  refine wp_time_of_answer (hJ w h0) fun c hc => ?_
  have htmp {w₁ : World β} (hs : World.Scratch [L.path (.revertedTmp w.proc.pid)] w w₁) :
      L.RecordingAt (Layout.Shown A) m reason w w₁ :=
        h0.of_scratch hs (by simp [Layout.records]) (by simp) (by simp)
  exact wp_writeAtomic (fun w₁ hs => hJ _ (htmp hs))
    (fun w₁ hr => hJ _ (h0.of_reverted hr ⟨c, hc, rfl⟩))
    (fun hf w₁ hs => mark (htmp hs) fun hn => absurd hn hf)
    fun w₁ hr hreverted => mark (h0.of_reverted hr ⟨c, hc, rfl⟩) fun hn => ⟨c, hc, hreverted hn⟩

/-- `doRollback`. It restores nothing when the backup is missing or the rename fails. Otherwise
it renames the backup over the running executable, and records the rollback. -/
theorem wp_doRollback_of_answer {m : UpdateMarker} {reason : String}
    {k : Bool → SysM β α} (hJ : J w)
    (hfalse : (m.prevBinary = "" ∨ w.files m.prevBinary = none ∨ ¬ Benign A) →
      cwp (hostMachine host) A J (k false) Q w)
    (hthrow : CanFail A (.exists m.prevBinary) → Q (.error .filesystemError) w)
    (hrec : ∀ w', m.prevBinary ≠ "" → w.files m.prevBinary ≠ none →
      L.RecordingAt (Layout.Shown A) m reason (w.rename m.prevBinary w.proc.binaryPath) w' → J w')
    (htrue : ∀ w', m.prevBinary ≠ "" → w.files m.prevBinary ≠ none →
      L.RecordingAt (Layout.Shown A) m reason (w.rename m.prevBinary w.proc.binaryPath) w' →
      (Benign A → L.RecordedIn A m reason w') →
      cwp (hostMachine host) A J (k true) Q w') :
    cwp (hostMachine host) A J (doRollback L.stateDir m reason >>= k) Q w := by
  unfold doRollback
  rw [L.stateFile_stateDir, L.revertedFile_stateDir]
  simp only [Prog.bind_assoc]
  refine wp_getCurrentBinaryPath hJ ?_
  split
  · rename_i hprev
    exact hfalse (.inl hprev)
  rename_i hne
  rw [Prog.bind_assoc]
  refine wp_fsExists hJ ?_ hthrow
  cases hfile : w.files m.prevBinary with
  | none => exact hfalse (.inr (.inl hfile))
  | some backup =>
    have hsome : w.files m.prevBinary ≠ none := by simp [hfile]
    simp only [Option.isSome_some, Bool.not_true, Bool.false_eq_true, if_false, Prog.bind_assoc]
    refine wp_fsRename hJ (fun _ => ?_) fun e hf => hfalse (.inr (.inr (not_benign rfl (hf hsome))))
    simp only [Option.isSome_none, Bool.false_eq_true, if_false, Prog.bind_assoc]
    -- From here on the backup is in place, and only the records are written.
    generalize w.rename m.prevBinary w.proc.binaryPath = w₁ at hrec htrue ⊢
    have h1 : L.RecordingAt (Layout.Shown A) m reason w₁ w₁ := .refl m reason w₁
    refine wp_fsyncDir (hrec _ hne hsome h1) fun w₂ hs _ => ?_
    exact wp_record (k := fun _ => k true) (fun w' h => hrec _ hne hsome (.of_sync hs h))
      fun w' h hend => htrue _ hne hsome (.of_sync hs h) hend

/-- The rule of the rollback: it returns `false` and changes nothing, or the lookup of the backup
throws, or the backup is renamed and the records are written after it. -/
theorem wp_doRollback {m : UpdateMarker} {reason : String} {k : Bool → SysM β α} (hJ : J w)
    (hfalse : (m.prevBinary = "" ∨ w.files m.prevBinary = none ∨ ¬ Benign A) →
      cwp (hostMachine host) A J (k false) Q w)
    (hthrow : CanFail A (.exists m.prevBinary) → Q (.error .filesystemError) w)
    (hrec : ∀ w', w.files m.prevBinary ≠ none →
      L.Recording m reason (w.rename m.prevBinary w.proc.binaryPath) w' → J w')
    (htrue : ∀ w', w.files m.prevBinary ≠ none →
      L.Recording m reason (w.rename m.prevBinary w.proc.binaryPath) w' →
      (Benign A → L.Recorded m reason w') →
      cwp (hostMachine host) A J (k true) Q w') :
    cwp (hostMachine host) A J (doRollback L.stateDir m reason >>= k) Q w :=
  wp_doRollback_of_answer hJ hfalse hthrow (fun w' _ hsome h => hrec w' hsome h.recording)
    fun w' _ hsome h hend => htrue w' hsome h.recording fun hA => (hend hA).recorded

end Rules

namespace Layout.RecordingAt

variable {β : Type} {L : Layout} {T : Int64 → Prop} {m : UpdateMarker} {reason : String}
  {w w' : World β}
  {target : Path}

/-- The recording does not touch the installed binary. -/
theorem files_install (h : L.RecordingAt T m reason w w') :
    w'.files (L.path .install) = w.files (L.path .install) :=
  h.scratch.files (by simp [Layout.records])

/-- Recording a rollback moves no backup, as only the records' own temporary files are renamed. -/
theorem not_renamedSince_prev (h : L.RecordingAt T m reason w w') (q : Path) :
    ¬ World.RenamedSince w w' (L.path .prev) q := by
  intro hr
  have := (h.scratch.mem_of_renamedSince hr).1
  simp [Layout.records] at this

/-- The backup went to the target of the restoring rename, and nowhere else. -/
theorem renamedSince_prev (h : L.RecordingAt T m reason (w.rename (L.path .prev) target) w')
    {q : Path} : World.RenamedSince w w' (L.path .prev) q ↔ target ≠ L.path .prev ∧ q = target := by
  have hstay := h.not_renamedSince_prev q
  by_cases htarget : target = L.path .prev
  · subst htarget
    rw [World.rename, if_pos rfl] at hstay
    simp [hstay]
  · rw [World.rename, if_neg (Ne.symm htarget)] at h hstay
    rw [(World.Scratch.move w (L.path .prev) target).renamedSince_trans h.scratch,
      World.Scratch.renamedSince_move, or_iff_left hstay]
    simp [htarget]

end Layout.RecordingAt

/-! ### The early boot -/

namespace Layout

variable {β : Type} (L : Layout) (A : SysOp β → Choice β → Prop) (version : String) (w : World β)

/-- The decision of a start of `version` that reads the marker in `w`. -/
def bootDecision : BootDecision := decideBoot (w.marker L.stateDir) version

/-- The states that `checkBoot` reaches from `w`, by what the decision asks for: nothing is changed,
the marker and the backup are cleared, the counted marker is written, or the backup is put back. -/
inductive Booting (w' : World β) : Prop where
  | untouched (h : World.Scratch [] w w')
  | clearing (clear : (L.bootDecision version w).action = .clearNoRevert)
      (h : World.Scratch [L.path .state, (L.bootDecision version w).marker.prevBinary] w w')
      (state : w'.files (L.path .state) = w.files (L.path .state) ∨
        w'.files (L.path .state) = none)
  | arming (arm : (L.bootDecision version w).action = .arm)
      (h : World.Scratch [L.path (.stateTmp w.proc.pid), L.path .state] w w')
      (state : w'.files (L.path .state) = w.files (L.path .state) ∨ w'.files (L.path .state)
        = some (.json (L.bootDecision version w).marker.toJson))
  | reverting (revert : (L.bootDecision version w).action = .rollback)
      (backup : w.files (L.bootDecision version w).marker.prevBinary ≠ none)
      (h : L.Recording (L.bootDecision version w).marker "crash_loop"
        (w.rename (L.bootDecision version w).marker.prevBinary w.proc.binaryPath) w')

/-- What `checkBoot` has done where its reads, writes and renames work. -/
def BenignBoot (d : BootDecision) (r : Except Exc BootOutcome) (w' : World β) : Prop :=
  match d.action with
  | .cleanStart => r = .ok .proceed ∧ World.Scratch [] w w'
  | .reportRolledBack => r = .ok .proceed ∧ World.Scratch [] w w'
  | .clearNoRevert => (∀ p, ¬ CanFail A (.remove p)) →
      r = .ok .proceed ∧ w'.files (L.path .state) = none ∧
        (d.marker.prevBinary ≠ "" → w'.files d.marker.prevBinary = none)
  | .arm => r = .ok .proceed ∧ w'.Durable (L.path .state) (.json d.marker.toJson)
  | .rollback => d.marker.prevBinary ≠ "" → w.files d.marker.prevBinary ≠ none →
      r = .ok .revertedExit ∧ L.Recorded d.marker "crash_loop" w'

/-- The end of `checkBoot`: what its outcome says about the files, and that it throws nothing where
the environment does not fail. -/
structure Booted (r : Except Exc BootOutcome) (w' : World β) : Prop where
  reverted : r = .ok .revertedExit → (L.bootDecision version w).action = .rollback ∧
    L.Recording (L.bootDecision version w).marker "crash_loop"
      (w.rename (L.bootDecision version w).marker.prevBinary w.proc.binaryPath) w'
  proceeded : r = .ok .proceed → (L.bootDecision version w).action = .rollback →
    World.Scratch [] w w'
  benign : Benign A → ¬ CanFail A (.read (L.path .state)) →
    (∀ content, w.files (L.path .state) = some content →
    ∃ r, content.marker = .ok r) → L.BenignBoot A w (L.bootDecision version w) r w'

end Layout

section Spec

variable {β : Type} {host : Host β} {A : SysOp β → Choice β → Prop} {w : World β} {L : Layout}
  {version : String}

/-- What the early boot does to the files at every moment, and what it has done at its end. -/
theorem checkBoot_spec : cwp (hostMachine host) A (L.Booting version w)
    (checkBoot L.stateDir version) (L.Booted A version w) w := by
  have h0 : L.Booting version w w := .untouched (World.Scratch.refl _ w)
  unfold checkBoot
  refine wp_readMarkerFile h0 ?_
    (fun hf => ⟨h0, ?_, fun _ _ => World.Scratch.refl _ w, fun _ hread => absurd hf hread⟩) ?_
  case refine_2 => simp
  case refine_3 =>
    refine fun content e hcontent he => ⟨by simp, by simp, fun _ _ hread => ?_⟩
    obtain ⟨r, hr⟩ := hread content hcontent
    rw [hr] at he
    cases he
  change cwp _ A _ (actOnBoot L.stateDir (L.bootDecision version w)) _ w
  unfold actOnBoot
  rw [L.stateFile_stateDir]
  -- One case for each decision.
  split
  case h_1 hd =>
    refine ⟨h0, by simp, by simp [hd], fun _ _ _ => ?_⟩
    simp [Layout.BenignBoot, hd, World.Scratch.refl]
  case h_3 hd =>
    refine ⟨h0, by simp, by simp [hd], fun _ _ _ => ?_⟩
    simp [Layout.BenignBoot, hd, World.Scratch.refl]
  case h_2 hd =>
    refine wp_removeQuiet h0 fun w₁ hs₁ hgone₁ => ?_
    have hstate₁ : w₁.files (L.path .state) = w.files (L.path .state) ∨
        w₁.files (L.path .state) = none :=
      hgone₁.elim .inr fun h => .inl (by rw [h.2])
    have h1 : L.Booting version w w₁ := .clearing hd (hs₁.mono (by simp)) hstate₁
    split
    · refine wp_removeQuiet h1 fun w₂ hs₂ hgone₂ => ?_
      have hstate₂ : w₂.files (L.path .state) = w₁.files (L.path .state) ∨
          w₂.files (L.path .state) = none := by
        by_cases hq : L.path .state = (L.bootDecision version w).marker.prevBinary
        · rw [hq]
          exact hgone₂.elim .inr fun h => .inl (by rw [h.2])
        · exact .inl (hs₂.files (by simpa using hq))
      refine ⟨.clearing hd ((hs₁.mono (by simp)).trans (hs₂.mono (by simp))) ?_, by simp,
        by simp [hd], fun _ _ _ => ?_⟩
      · exact hstate₂.elim (fun h => h ▸ hstate₁) .inr
      · simp only [Layout.BenignBoot, hd]
        intro hremove
        have hprev := hgone₂.resolve_right fun hf => hremove _ hf.1
        have hgone := hgone₁.resolve_right fun hf => hremove _ hf.1
        exact ⟨trivial, hstate₂.elim (fun h => h.trans hgone) id, fun _ => hprev⟩
    · rename_i hempty
      refine ⟨h1, by simp, by simp [hd], fun _ _ _ => ?_⟩
      simp only [Layout.BenignBoot, hd]
      intro hremove
      exact ⟨trivial, hgone₁.resolve_right fun hf => hremove _ hf.1, fun h => absurd h hempty⟩
  case h_4 hd =>
    have htmp {w' : World β} (hs : World.Scratch [L.path (.stateTmp w.proc.pid)] w w') :
        L.Booting version w w' :=
      .arming hd (hs.mono (by simp)) (.inl (hs.files (by simp)))
    have armed {w' : World β} (hr : World.Replaced (tempPath (L.path .state) w.proc.pid)
        (L.path .state) (.json (L.bootDecision version w).marker.toJson) w w') :
        L.Booting version w w' := .arming hd hr.scratch (.inr hr.files_target)
    refine wp_writeAtomic (fun w' hs => htmp hs) (fun w' hr => armed hr)
      (fun hf w' hs => ⟨htmp hs, by simp, by simp [hd], fun hA => absurd hA hf⟩)
      fun w' hr hdurable => ⟨armed hr, by simp, by simp [hd], fun hA _ _ => ?_⟩
    simpa [Layout.BenignBoot, hd] using hdurable hA
  case h_5 hd =>
    refine wp_doRollback h0
      (fun hf => ⟨h0, by simp, fun _ _ => World.Scratch.refl _ w, fun hA _ _ => ?_⟩)
      (fun hf => ⟨by simp, by simp, fun hA => absurd hA (not_benign rfl hf)⟩)
      (fun w' hsome h => .reverting hd hsome h)
      fun w' hsome h hend => ⟨.reverting hd hsome h, fun _ => ⟨hd, h⟩, by simp,
        fun hA _ _ => ?_⟩
    · simp only [Layout.BenignBoot, hd]
      intro hne hsome
      rcases hf with hf | hf | hf
      · exact absurd hf hne
      · exact absurd hf hsome
      · exact absurd hA hf
    · simpa [Layout.BenignBoot, hd] using fun _ _ => hend hA

end Spec

end ThinrAgent
