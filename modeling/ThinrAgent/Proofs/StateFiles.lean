import ThinrAgent.Proofs.Cycle
import ThinrAgent.Proofs.StaleMarker

/-!
# `ThinrAgent.Proofs.StateFiles`: which state files the agent survives

The readers of `update.state` and `update.reverted` convert an entry of an incompatible type by
throwing. `MarkerTyped` and `RecordTyped` say which texts do not throw, by the types of their
entries alone. `survives_iff` adds what the three callers make of it: the construction of the
agent, the poll thread and the observer of the client state. The path of the backup is a content
too. A crash loop looks it up with a call that throws when the lookup fails, as it does for a
name that is too long.
-/

set_option autoImplicit false

namespace ThinrAgent

open Effects

/-! ### The types of the entries -/

namespace Json

/-- A number of any kind, which every integer field of the two files accepts. -/
def isNumber (j : Json) : Bool := j.number.isSome

/-- A number or a boolean, which an `int` field accepts. -/
def isNumberOrBool : Json → Bool
  | bool _ => true
  | j => j.isNumber

/-- The entry of `j` at `key` is missing or has the type `ty`. -/
def Entry (ty : Json → Bool) (j : Json) (key : String) : Prop :=
  ∀ entry, j.find key = some entry → ty entry = true

variable {j : Json}

/-- The conversion to a string succeeds for strings only. -/
theorem getString_isOk (j : Json) : (∃ s, j.getString = .ok s) ↔ j.isString = true := by
  cases j <;> simp [getString, isString]

/-- The conversion to a 64-bit integer succeeds for numbers only. -/
theorem getInt64_isOk (j : Json) : (∃ n, j.getInt64 = .ok n) ↔ j.isNumber = true := by
  cases j <;> simp [getInt64, isNumber, number]

/-- The conversion to an `int` succeeds for numbers and for the two truth values. -/
theorem getInt32_isOk (j : Json) : (∃ n, j.getInt32 = .ok n) ↔ j.isNumberOrBool = true := by
  cases j <;> simp [getInt32, isNumberOrBool, isNumber, number]

/-- A field with a default is read exactly when its entry has the type of the field. -/
theorem value_isOk {α : Type} {get : Json → Except JsonError α} {ty : Json → Bool}
    (hget : ∀ entry : Json, (∃ a, get entry = .ok a) ↔ ty entry = true)
    (hobject : j.isObject = true) (key : String) (dflt : α) :
    (∃ a, j.value get key dflt = .ok a) ↔ Entry ty j key := by
  unfold value Entry
  rw [if_pos hobject]
  cases hfind : j.find key with
  | none => simp
  | some entry => simpa using hget entry

end Json

/-- A sequence of conversions that do not depend on each other. -/
theorem Except.bind_isOk {ε α γ : Type} {x : Except ε α} {f : α → Except ε γ} {P : Prop}
    (hf : ∀ a, (∃ c, f a = .ok c) ↔ P) :
    (∃ c, (x >>= f) = .ok c) ↔ (∃ a, x = .ok a) ∧ P := by
  cases x with
  | error e => simp [bind, Except.bind]
  | ok a => simpa [bind, Except.bind] using hf a

/-- The text of `update.state` has the name of a phase, without which it is no marker. -/
def HasPhase (j : Json) : Prop :=
  ∃ text phase, j.find "phase" = some (.str text) ∧ UpdatePhase.ofString text = some phase

/-- The entries of a marker have the types of its fields. -/
structure MarkerTyped (j : Json) : Prop where
  fromVersion : Json.Entry Json.isString j "from"
  toVersion : Json.Entry Json.isString j "to"
  prevBinary : Json.Entry Json.isString j "prev_binary"
  startedAt : Json.Entry Json.isNumber j "started_at"
  attempts : Json.Entry Json.isNumberOrBool j "attempts"
  deadlineS : Json.Entry Json.isNumberOrBool j "deadline_s"
  reportAttempts : Json.Entry Json.isNumberOrBool j "report_attempts"

/-- The text of `update.reverted` has a nonempty version. -/
def HasVersion (j : Json) : Prop := ∃ version, j.find "version" = some (.str version) ∧ version ≠ ""

/-- The entries of a record have the types of its fields. -/
structure RecordTyped (j : Json) : Prop where
  restored : Json.Entry Json.isString j "restored"
  reason : Json.Entry Json.isString j "reason"
  at_ : Json.Entry Json.isNumber j "at"

/-- A value with an entry is an object. -/
theorem Json.isObject_of_find {j entry : Json} {key : String} (h : j.find key = some entry) :
    j.isObject = true := by
  cases j <;> simp_all [Json.find, Json.isObject]

/-- `update_marker::parse` does not throw exactly when the text has no phase, or has entries of
the right types. -/
theorem UpdateMarker.fromJson_isOk {j : Json} :
    (∃ r, fromJson j = .ok r) ↔ (HasPhase j → MarkerTyped j) := by
  by_cases hphase : HasPhase j
  · obtain ⟨text, phase, hfind, htext⟩ := hphase
    have hobject := Json.isObject_of_find hfind
    have string := Json.value_isOk Json.getString_isOk hobject
    have int64 := Json.value_isOk Json.getInt64_isOk hobject
    have int32 := Json.value_isOk Json.getInt32_isOk hobject
    have hfields : (∃ r, fromJson j = .ok r) ↔ Json.Entry Json.isString j "from" ∧
        Json.Entry Json.isString j "to" ∧ Json.Entry Json.isString j "prev_binary" ∧
        Json.Entry Json.isNumber j "started_at" ∧ Json.Entry Json.isNumberOrBool j "attempts" ∧
        Json.Entry Json.isNumberOrBool j "deadline_s" ∧
        Json.Entry Json.isNumberOrBool j "report_attempts" := by
      -- The entries are converted one after the other, and the first of a wrong type throws.
      simp only [fromJson, hobject, if_true, hfind, htext]
      rw [Except.bind_isOk, string]
      intro fromVersion
      rw [Except.bind_isOk, string]
      intro toVersion
      rw [Except.bind_isOk, string]
      intro prevBinary
      rw [Except.bind_isOk, int64]
      intro startedAt
      rw [Except.bind_isOk, int32]
      intro attempts
      rw [Except.bind_isOk, int32]
      intro deadlineS
      rw [Except.bind_isOk (P := True), int32, and_true]
      exact fun reportAttempts => iff_of_true ⟨_, rfl⟩ trivial
    rw [hfields]
    constructor
    · rintro ⟨h1, h2, h3, h4, h5, h6, h7⟩ -
      exact ⟨h1, h2, h3, h4, h5, h6, h7⟩
    · intro h
      obtain ⟨h1, h2, h3, h4, h5, h6, h7⟩ := h ⟨text, phase, hfind, htext⟩
      exact ⟨h1, h2, h3, h4, h5, h6, h7⟩
  -- Without a phase the other entries are not looked at.
  · refine iff_of_true ?_ fun h => absurd h hphase
    unfold fromJson
    split
    · split
      · rename_i text htext
        cases hof : UpdatePhase.ofString text with
        | none => exact ⟨none, rfl⟩
        | some phase => exact absurd ⟨text, phase, htext, hof⟩ hphase
      · exact ⟨none, rfl⟩
    · exact ⟨none, rfl⟩

/-- `reverted_info::parse` does not throw exactly when the text has no version, or has entries of
the right types. -/
theorem RevertedInfo.fromJson_isOk {j : Json} :
    (∃ r, fromJson j = .ok r) ↔ (HasVersion j → RecordTyped j) := by
  by_cases hversion : HasVersion j
  · obtain ⟨version, hfind, hne⟩ := hversion
    have hobject := Json.isObject_of_find hfind
    have string := Json.value_isOk Json.getString_isOk hobject
    have int64 := Json.value_isOk Json.getInt64_isOk hobject
    -- The fields are read one after the other, and the first of a wrong type throws.
    have hfields : (∃ r, fromJson j = .ok r) ↔ Json.Entry Json.isString j "restored" ∧
        Json.Entry Json.isString j "reason" ∧ Json.Entry Json.isNumber j "at" := by
      simp only [fromJson, hobject, if_true, hfind, if_neg hne]
      rw [Except.bind_isOk, string]
      intro restored
      rw [Except.bind_isOk, string]
      intro reason
      rw [Except.bind_isOk (P := True), int64, and_true]
      exact fun at_ => iff_of_true ⟨_, rfl⟩ trivial
    rw [hfields]
    constructor
    · rintro ⟨h1, h2, h3⟩ -
      exact ⟨h1, h2, h3⟩
    · intro h
      obtain ⟨h1, h2, h3⟩ := h ⟨version, hfind, hne⟩
      exact ⟨h1, h2, h3⟩
  · refine iff_of_true ?_ fun h => absurd h hversion
    unfold fromJson
    split
    · split
      · rename_i version hfind
        by_cases hne : version = ""
        · exact ⟨none, by rw [if_pos hne]⟩
        · exact absurd ⟨version, hfind, hne⟩ hversion
      · exact ⟨none, rfl⟩
    · exact ⟨none, rfl⟩

/-! ### The callers -/

section Callers

variable {β : Type} {host : Host β} {A : SysOp β → Choice β → Prop} {w : World β} {build : Build}
  {req : ApplyRequest} {stateDir : Path} {version : String} {p : UpdatePoller}
  {cast : Json.FloatCast} {f : Fractions} {user : User}

/-- Looking up the path of the running executable has a fallback for every failure. -/
theorem neverThrows_getCurrentBinaryPath :
    NeverThrows (getCurrentBinaryPath : SysM β Path) := by
  refine .bind (.single _) fun link => ?_
  cases link <;> trivial

/-- Asking for open sessions throws nothing, whatever the answers are. -/
theorem neverThrows_sessionsBusy {origin : UpdateOrigin} :
    NeverThrows (sessionsBusy origin : SysM β Bool) :=
  .ite (.bind (.single _) fun _ => trivial) trivial

/-- The download of a binary reports its failures in its result. -/
theorem neverThrows_fetchBinary {install : Path} : NeverThrows (fetchBinary host req install) := by
  have refuse (r : ApplyResult) : NeverThrows (do
      let _ ← fsRemove (newPath install)
      return some r : SysM β (Option ApplyResult)) := .bind (.single _) fun _ => trivial
  unfold fetchBinary
  refine .bind (.bind (.single _) fun r => ?_) fun good =>
    .ite (refuse _) (.bind ?_ fun matched => ?_)
  · cases r <;> trivial
  · refine .ite trivial (.bind (.bind (.single _) fun r => ?_) fun _ => trivial)
    cases r <;> trivial
  refine .ite (refuse _) (.bind (.single _) fun _ => ?_)
  refine .bind (.bind (.single _) fun r => trivial) fun probed => .ite (refuse _) ?_
  exact .bind neverThrows_sessionsBusy fun busy => .ite (refuse _) trivial

/-- The swap of the binary reports its failures in its result. -/
theorem neverThrows_swapBinary {install : Path} :
    NeverThrows (swapBinary host build req install) := by
  have remove {γ : Type} {q : Path} {g : Option Errno → SysM β γ} (hg : ∀ ec, NeverThrows (g ec)) :
      NeverThrows (fsRemove q >>= g) := .bind (.single _) hg
  unfold swapBinary
  refine remove fun _ => .bind (.single _) fun copied => .ite (remove fun _ => trivial) ?_
  refine .bind (.single _) fun staged => .ite (remove fun _ => remove fun _ => trivial) ?_
  refine .bind (.single _) fun startedAt => .bind neverThrows_writeAtomic fun written => ?_
  refine .ite (remove fun _ => remove fun _ => trivial) (.bind (.single _) fun swapped => ?_)
  refine .ite (remove fun _ => remove fun _ => remove fun _ => trivial) ?_
  exact .bind (.single _) fun _ => trivial

/-- An apply throws only when the marker cannot be looked up. -/
theorem applyWithWatchdog_returns (hlookup : ¬ CanFail A (.exists (stateFile req.stateDir))) :
    cwp (hostMachine host) A (fun _ => True) (applyWithWatchdog host build req)
      (fun r _ => ∃ a, r = .ok a) w := by
  have guarded (v : World β) : cwp (hostMachine host) A (fun _ => True)
      (applyGuarded host build req) (fun r _ => ∃ a, r = .ok a) v := by
    unfold applyGuarded
    -- The look for the marker is the only call here that can throw.
    refine wp_fsExists trivial (cwp_of_neverThrows ?_ _) fun hf => absurd hf hlookup
    refine .ite trivial (.bind neverThrows_sessionsBusy fun busy => .ite trivial ?_)
    refine .bind neverThrows_getCurrentBinaryPath fun install => ?_
    refine .bind neverThrows_fetchBinary fun refused => ?_
    cases refused with
    | some r => trivial
    | none => exact neverThrows_swapBinary
  unfold applyWithWatchdog
  split
  · exact ⟨trivial, _, rfl⟩
  · refine wp_acquireInProgress trivial fun free => ?_
    cases free with
    | false => exact ⟨trivial, _, rfl⟩
    | true =>
      refine cwp_ensure (cwp_mono (guarded _) (fun _ h => h) ?_)
      rintro r v - hr
      exact ⟨trivial, fun _ _ => ⟨trivial, hr⟩⟩

/-- A rollback throws only when the backup cannot be looked up. -/
theorem doRollback_returns {m : UpdateMarker} {reason : String}
    (hlookup : m.prevBinary ≠ "" → ¬ CanFail A (.exists m.prevBinary)) :
    cwp (hostMachine host) A (fun _ => True) (doRollback stateDir m reason)
      (fun r _ => ∃ a, r = .ok a) w := by
  unfold doRollback
  refine wp_getCurrentBinaryPath trivial ?_
  split
  · exact ⟨trivial, _, rfl⟩
  · rename_i hne
    refine wp_fsExists trivial (cwp_of_neverThrows ?_ _) fun hf => absurd hf (hlookup hne)
    refine .ite trivial (.bind (.single _) fun renamed => .ite trivial ?_)
    refine .bind (.single _) fun _ => .bind (.single _) fun at_ => ?_
    exact .bind neverThrows_writeAtomic fun _ => .bind neverThrows_writeAtomic fun _ => trivial

/-- The marker and the record on disk have entries of the right types, and the backup of a
marker whose attempts are used up can be looked up. -/
structure Harmless (A : SysOp β → Choice β → Prop) (w : World β) (stateDir : Path)
    (version : String) : Prop where
  marker : ∀ j, (w.files (stateFile stateDir)).bind Content.parse = some j →
    HasPhase j → MarkerTyped j
  record : ∀ j, (w.files (revertedFile stateDir)).bind Content.parse = some j →
    HasVersion j → RecordTyped j
  backup : Readable A (stateFile stateDir) → ∀ m, w.marker stateDir = some m →
    (decideBoot (some m) version).action = .rollback → m.prevBinary ≠ "" →
      ¬ CanFail A (.exists m.prevBinary)

/-- The record in a file's text, or the exception its conversion throws. -/
def Content.record (content : Content β) : Except JsonError (Option RevertedInfo) :=
  match content.parse with
  | none => .ok none
  | some j => RevertedInfo.fromJson j

/-- The reader of the marker does not throw exactly when the text has no valid phase or its entries
have the types of a marker. -/
theorem marker_isOk {content : Content β} : (∃ r, content.marker = .ok r) ↔
    ∀ j, content.parse = some j → HasPhase j → MarkerTyped j := by
  unfold Content.marker
  cases content.parse with
  | none => simp
  | some j => simpa using UpdateMarker.fromJson_isOk

/-- The reader of the record does not throw exactly when the text has no version or its entries have
the types of a record. -/
theorem record_isOk {content : Content β} : (∃ r, content.record = .ok r) ↔
    ∀ j, content.parse = some j → HasVersion j → RecordTyped j := by
  unfold Content.record
  cases content.parse with
  | none => simp
  | some j => simpa using RevertedInfo.fromJson_isOk

/-- No reader of the two files throws where the condition holds, at the marker first of all. -/
theorem Harmless.marker_ne_error (h : Harmless A w stateDir version) {content : Content β}
    {e : JsonError} (hfile : w.files (stateFile stateDir) = some content) :
    content.marker ≠ .error e := by
  intro he
  obtain ⟨r, hr⟩ : ∃ r, content.marker = .ok r := by
    refine marker_isOk.mpr fun j hj => h.marker j ?_
    simp [hfile, hj]
  rw [hr] at he
  cases he

/-- In a harmless state the reader of the record does not throw, as the types of its entries are
right. -/
theorem Harmless.not_revertedThrows (h : Harmless A w stateDir version) :
    ¬ w.RevertedThrows stateDir := by
  rintro ⟨j, e, hj, he⟩
  obtain ⟨r, hr⟩ := RevertedInfo.fromJson_isOk.mpr (h.record j hj)
  rw [hr] at he
  cases he

/-- From a harmless state the early boot ends with a value, whatever is answered. -/
theorem checkBoot_returns (h : Harmless A w stateDir version) :
    cwp (hostMachine host) A (fun _ => True) (checkBoot stateDir version)
      (fun r _ => ∃ a, r = .ok a) w := by
  unfold checkBoot
  refine wp_readMarkerFile_of_readable trivial (fun hread => ?_) (fun _ => ⟨trivial, _, rfl⟩)
    fun _ content e hfile he => absurd he (h.marker_ne_error hfile)
  unfold actOnBoot
  -- One case for each decision. Only a rollback looks up a path that the marker has given.
  split
  case h_1 => exact ⟨trivial, _, rfl⟩
  case h_2 =>
    refine wp_removeQuiet trivial fun w₁ _ _ => ?_
    split
    · exact wp_removeQuiet trivial fun w₂ _ _ => ⟨trivial, _, rfl⟩
    · exact ⟨trivial, _, rfl⟩
  case h_3 => exact ⟨trivial, _, rfl⟩
  case h_4 =>
    exact wp_writeAtomic (fun _ _ => trivial) (fun _ _ => trivial)
      (fun _ _ _ => ⟨trivial, _, rfl⟩) fun _ _ _ => ⟨trivial, _, rfl⟩
  case h_5 hd =>
    cases hm : w.marker stateDir with
    | none =>
      rw [hm] at hd
      cases hd
    | some m =>
      rw [hm] at hd
      obtain ⟨-, -, hmarker⟩ := decideBoot_action_eq_rollback hd
      rw [hmarker]
      have hlookup := h.backup hread m hm hd
      refine cwp_bind (cwp_mono (doRollback_returns hlookup) (fun _ h => h) ?_)
      rintro r v - ⟨restored, rfl⟩
      cases restored with
      | true => exact ⟨trivial, _, rfl⟩
      | false => exact ⟨trivial, _, rfl⟩

/-- From a harmless state the watchdog is constructed, whatever is answered. -/
theorem create_returns (h : Harmless A w stateDir version) (runningVersion : String) :
    cwp (hostMachine host) A (fun _ => True) (UpdateWatchdog.create stateDir runningVersion)
      (fun r _ => ∃ a, r = .ok a) w := by
  unfold UpdateWatchdog.create
  refine wp_readMarkerFile trivial ⟨trivial, _, rfl⟩ (fun _ => ⟨trivial, _, rfl⟩) ?_
  exact fun content e hfile he => absurd he (h.marker_ne_error hfile)

/-- The report branch comes to the removal of the marker. -/
theorem reportRolledBack_returns {wd : UpdateWatchdog} (h : Harmless A w wd.stateDir version) :
    cwp (hostMachine host) A (fun _ => True) wd.reportRolledBack
      (fun r v => r = .ok () ∧
        (v.files wd.markerPath = none ∨ CanFail A (.remove wd.markerPath))) w := by
  refine ⟨trivial, fun _ _ => ?_⟩
  show cwp _ A _ (lastReverted wd.stateDir >>= fun rv => _) _ w
  refine wp_lastReverted trivial (fun _ rv => ?_) fun hthrows _ =>
    absurd hthrows h.not_revertedThrows
  refine wp_report trivial ?_
  rw [← Prog.bind_ret (removeQuiet _)]
  refine wp_removeQuiet trivial fun w₁ _ hgone => ⟨trivial, rfl, ?_⟩
  exact hgone.imp id And.left

/-- From a harmless state a poll with settings ends with a value, when the lookup of the marker does
not fail. -/
theorem runLocal_returns (h : Harmless A w p.stateDir version)
    (hlookup : ¬ CanFail A (.exists (stateFile p.stateDir))) (settings : UpdateSettings) :
    cwp (hostMachine host) A (fun _ => True) (p.runLocal host build cast f settings)
      (fun r _ => ∃ a, r = .ok a) w := by
  -- The apply runs after the record is read, in whatever state that leaves.
  have apply (man : Manifest) (v : World β) : cwp (hostMachine host) A (fun _ => True)
      (UpdatePoller.applyCandidate host build (p.request build settings man))
      (fun r _ => ∃ a, r = .ok a) v := by
    unfold UpdatePoller.applyCandidate
    refine cwp_bind (cwp_mono (applyWithWatchdog_returns hlookup) (fun _ h => h) ?_)
    rintro r v' - ⟨ar, rfl⟩
    refine cwp_of_neverThrows ?_ _
    cases ar.st with
    | updated => exact .bind (.single _) fun _ => trivial
    | deferred => trivial
    | error => trivial
  unfold UpdatePoller.runLocal
  refine wp_candidate trivial ⟨trivial, _, rfl⟩ (fun man _ => apply man w) fun hthrows _ => ?_
  exact absurd hthrows h.not_revertedThrows

/-- From a harmless state a whole cycle of the poll thread ends with a value, when it has a path for
the configuration and the lookup of the marker does not fail. -/
theorem runCycle_returns {path : Path} (h : Harmless A w p.stateDir version)
    (hpath : configPathOf user p.configPath = .ok path)
    (hlookup : ¬ CanFail A (.exists (stateFile p.stateDir))) :
    cwp (hostMachine host) A (fun _ => True) (p.runCycle host build cast f user)
      (fun r _ => ∃ a, r = .ok a) w := by
  -- The settings come from a file that is only read, so the rest starts in the same world.
  have rest (settings : UpdateSettings) : cwp (hostMachine host) A (fun _ => True)
      (p.runLocal host build cast f settings >>= fun result =>
        (.ret (result, settings.checkIntervalH) : SysM β _)) (fun r _ => ∃ a, r = .ok a) w := by
    refine cwp_bind (cwp_mono (runLocal_returns h hlookup settings) (fun _ h => h) ?_)
    rintro r v - ⟨result, rfl⟩
    exact ⟨trivial, _, rfl⟩
  unfold UpdatePoller.runCycle
  rw [readLocal_eq hpath, Prog.bind_assoc]
  exact wp_readUpdateSection trivial (rest _) fun _ => rest _

/-- What must hold of the agent whatever the two files contain: the parsers return, the
construction of the agent and the poll cycle do not throw, and a report comes to the removal of
the marker. -/
structure Survives (host : Host β) (build : Build) (cast : Json.FloatCast) (f : Fractions)
    (user : User) (A : SysOp β → Choice β → Prop) (w : World β) (p : UpdatePoller)
    (version : String) : Prop where
  marker : ∀ content, w.files (stateFile p.stateDir) = some content → ∃ r, content.marker = .ok r
  record : ∀ content, w.files (revertedFile p.stateDir) = some content →
    ∃ r, content.record = .ok r
  boot : Ensures (hostMachine host) A (checkBoot p.stateDir version) (fun r _ => ∃ a, r = .ok a) w
  create : Ensures (hostMachine host) A (UpdateWatchdog.create p.stateDir version)
    (fun r _ => ∃ a, r = .ok a) w
  cycle : Ensures (hostMachine host) A (p.runCycle host build cast f user)
    (fun r _ => ∃ a, r = .ok a) w
  report : ∀ wd : UpdateWatchdog, wd.stateDir = p.stateDir →
    Ensures (hostMachine host) A wd.reportRolledBack (fun r v => r = .ok () ∧
      (v.files wd.markerPath = none ∨ CanFail A (.remove wd.markerPath))) w

/-- A crash loop whose backup cannot be looked up ends the boot with an exception. -/
theorem checkBoot_throws {m : UpdateMarker} (hm : w.marker stateDir = some m)
    (hcontent : ∀ content, w.files (stateFile stateDir) = some content →
      ∃ r, content.marker = .ok r)
    (hd : (decideBoot (some m) version).action = .rollback) (hne : m.prevBinary ≠ "") :
    cwp (hostMachine host) (fun o c => A o c ∧ (o = .read (stateFile stateDir) → c.error = none) ∧
        (o = .exists m.prevBinary → c.error ≠ none)) (fun _ => True)
      (checkBoot stateDir version) (fun r _ => r = .error .filesystemError) w := by
  have unread {B : SysOp β → Choice β → Prop} {o : SysOp β}
      (hB : ∀ o' c, B o' c → o' = o → c.error = none) : ¬ CanFail B o := by
    rintro ⟨c, e, hc, he⟩
    rw [hB _ c hc rfl] at he
    cases he
  unfold checkBoot
  refine wp_readMarkerFile trivial ?_ (fun hf => absurd hf (unread fun _ _ h => h.2.1)) ?_
  · obtain ⟨-, -, hmarker⟩ := decideBoot_action_eq_rollback hd
    rw [hm]
    unfold actOnBoot
    rw [hd, hmarker]
    simp only
    unfold doRollback
    rw [Prog.bind_assoc]
    refine wp_getCurrentBinaryPath trivial ?_
    have hne' : m.counted.prevBinary ≠ "" := hne
    rw [if_neg hne', Prog.bind_assoc]
    -- The lookup of the backup is not guarded against an exception.
    refine ⟨trivial, fun c hc => ?_⟩
    cases he : c.error with
    | none => exact absurd he (hc.2.2 rfl)
    | some e =>
      show cwp _ _ _ (orThrow (exec host w (.exists m.prevBinary) c).1 >>= _) _ _
      simp [exec, he, orThrow]
  · intro content e hfile he
    obtain ⟨r, hr⟩ := hcontent content hfile
    rw [hr] at he
    cases he

end Callers

/-- An agent that runs with a configuration path it can expand, and that can look up
`update.state`, survives what the two files contain exactly when it is harmless. -/
theorem survives_iff {β : Type} (host : Host β) (build : Build) (cast : Json.FloatCast)
    (f : Fractions) (user : User) {A : SysOp β → Choice β → Prop} {w : World β} {p : UpdatePoller}
    (version : String) {path : Path} (hA : Answers (I := sysInterface β) A)
    (hpath : configPathOf user p.configPath = .ok path)
    (hlookup : ¬ CanFail A (.exists (stateFile p.stateDir))) :
    Survives host build cast f user A w p version ↔ Harmless A w p.stateDir version := by
  constructor
  · intro h
    -- The readers are called on these files, so their texts have to be harmless.
    refine ⟨fun j hj => ?_, fun j hj => ?_, fun hread m hm hd hne hfail => ?_⟩
    · obtain ⟨content, hfile, hparse⟩ := Option.bind_eq_some_iff.mp hj
      exact marker_isOk.mp (h.marker content hfile) j hparse
    · obtain ⟨content, hfile, hparse⟩ := Option.bind_eq_some_iff.mp hj
      exact record_isOk.mp (h.record content hfile) j hparse
    · -- The run that reads the marker and fails to look up the backup.
      obtain ⟨c, hc, hok⟩ := hread
      obtain ⟨d, e, hd', he⟩ := hfail
      have hans : Answers (I := sysInterface β) fun o c => A o c ∧
          (o = .read (stateFile p.stateDir) → c.error = none) ∧
          (o = .exists m.prevBinary → c.error ≠ none) := by
        intro o
        by_cases hread : o = .read (stateFile p.stateDir)
        · subst hread
          exact ⟨c, hc, fun _ => hok, by simp⟩
        by_cases hexists : o = .exists m.prevBinary
        · subst hexists
          exact ⟨d, hd', by simp, fun _ => by simp [he]⟩
        · obtain ⟨c', hc'⟩ := hA o
          exact ⟨c', hc', fun h => absurd h hread, fun h => absurd h hexists⟩
      refine not_ensures hans (fun _ _ h => h.1) (checkBoot_throws hm h.marker hd hne) ?_ h.boot
      rintro r v rfl ⟨a, ha⟩
      cases ha
  · intro h
    -- One result for each of the callers.
    refine ⟨fun content hfile => ?_, fun content hfile => ?_, ?_, ?_, ?_, ?_⟩
    · exact marker_isOk.mpr fun j hj => h.marker j (by simp [hfile, hj])
    · exact record_isOk.mpr fun j hj => h.record j (by simp [hfile, hj])
    · exact ensures_of_cwp (checkBoot_returns h)
    · exact ensures_of_cwp (create_returns h version)
    · exact ensures_of_cwp (runCycle_returns h hpath hlookup)
    · intro wd hdir
      exact ensures_of_cwp (reportRolledBack_returns (hdir ▸ h))

/-- The condition at the files of an ordinary trial, with the marker as the code writes it. -/
theorem survives_iff_sample :
    Survives sampleHost sampleBuild .wrap (deviceFraction fun _ => []) sampleRoot OnlyOk
        (sampleTrial Layout.system.install) samplePoller "2" ↔
      Harmless OnlyOk (sampleTrial Layout.system.install) samplePoller.stateDir "2" :=
  survives_iff sampleHost sampleBuild .wrap (deviceFraction fun _ => []) sampleRoot "2"
    (fun _ => ⟨.ok, rfl⟩) (show configPathOf sampleRoot samplePoller.configPath =
      .ok SYSTEM_CONFIG_PATH from rfl) (not_canFail_onlyOk _)

/-- A marker whose attempts are a string, and a record whose time is one. -/
def sampleIllTyped : World Nat :=
  .ofFiles (fun p =>
      if p = Layout.system.path .state then
        some (.json (.obj [("phase", .str "pending"), ("attempts", .str "x")]))
      else if p = Layout.system.path .reverted then
        some (.json (.obj [("version", .str "2"), ("at", .str "x")]))
      else none)
    { pid := 1, exe := some Layout.system.install }

/-- The boot throws for that marker, and the report branch throws for that record before it
removes the marker. -/
theorem not_survives_sample :
    ((hostMachine sampleHost).after [.ok] (checkBoot Layout.system.stateDir "1",
        sampleIllTyped)).1.result = some (.error .typeError) ∧
      ((hostMachine sampleHost).after [.ok, .ok]
        (UpdateWatchdog.reportRolledBack
          { stateDir := Layout.system.stateDir, runningVersion := "1" },
          sampleIllTyped)).1.result = some (.error .typeError) := by
  decide +kernel

end ThinrAgent
