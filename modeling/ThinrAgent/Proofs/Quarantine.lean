import ThinrAgent.Proofs.Tasks

/-!
# `ThinrAgent.Proofs.Quarantine`: which versions a device asks for again

A rollback passes a verdict on a version. A verdict for a missed deadline bans the version for the
cooldown, and any other one bans it for good (`Verdict.Bans`). The device has one record for its
verdicts, `update.reverted`, and every rollback rewrites it.

A `Ledger` is the device with the history of its verdicts, and a `Happening` is one process that
does one task. `Covered` says that the record does the work of a verdict, and `Replaceable` that a
record may be rewritten. `Ledger.Inv` is the invariant. In a run where no rollback rewrites a
record that is still needed, no cycle asks for a banned version (`banned_not_asked`).
-/

set_option autoImplicit false

namespace ThinrAgent

open Effects

/-! ### Verdicts -/

/-- A rollback: the version, the reason, and the clock when it began. -/
structure Verdict where
  version : String
  reason : String
  at_ : Int
  deriving DecidableEq

namespace Verdict

/-- A request for `version` at the time `now` is one that the verdict bans. -/
def Bans (x : Verdict) (now : Int) (version : String) : Prop :=
  x.version = version ∧
    (x.reason ≠ "deadline" ∨ now < x.at_ + REVERTED_RETRY_COOLDOWN_S.toInt)

/-- The verdict bans nothing from `now` on: it is one of the deadline, and the cooldown behind it is
over. -/
def Expired (x : Verdict) (now : Int) : Prop :=
  x.reason = "deadline" ∧ x.at_ + REVERTED_RETRY_COOLDOWN_S.toInt ≤ now

/-- The record `rv?` does the work of the verdict from `now` on. (No request is for the empty
version.) -/
def Covered (rv? : Option RevertedInfo) (now : Int) (x : Verdict) : Prop :=
  x.version = "" ∨ x.Expired now ∨ ∃ rv, rv? = some rv ∧ rv.version = x.version ∧
    (rv.reason = "deadline" → x.reason = "deadline" ∧ x.at_ ≤ rv.at_.toInt)

/-- The record `rv?` may be rewritten for the verdict: it is of the same version, and no harder
than the verdict, or it has expired. -/
def Replaceable (rv? : Option RevertedInfo) (x : Verdict) : Prop :=
  ∀ rv, rv? = some rv →
    rv.version = x.version ∧ (x.reason = "deadline" → rv.reason = "deadline") ∨
      rv.reason = "deadline" ∧ rv.at_.toInt + REVERTED_RETRY_COOLDOWN_S.toInt ≤ x.at_

variable {x y : Verdict} {rv? : Option RevertedInfo} {now later : Int} {version : String}

/-- The passing of time does not uncover a verdict: one that has expired needs no record. -/
theorem Covered.mono (h : Covered rv? now x) (hle : now ≤ later) : Covered rv? later x := by
  rcases h with h | ⟨hreason, h⟩ | h
  · exact .inl h
  · exact .inr (.inl ⟨hreason, by omega⟩)
  · exact .inr (.inr h)

/-- A poll skips what a covered verdict bans. -/
theorem Covered.skips (h : Covered rv? now x) (hx : 0 ≤ x.at_) (hnow : 0 ≤ now)
    (hmax : now < 2 ^ 63) (hban : x.Bans now version) (hversion : version ≠ "") :
    ∃ rv, rv? = some rv ∧
      skipRevertedVersion rv version (Int64.ofInt now) REVERTED_RETRY_COOLDOWN_S = true := by
  obtain ⟨rfl, hban⟩ := hban
  rcases h with h | ⟨hreason, h⟩ | ⟨rv, hrv, hv, hcovers⟩
  · exact absurd h hversion
  · rcases hban with hban | hban
    · exact absurd hreason hban
    · omega
  refine ⟨rv, hrv, ?_⟩
  rw [skipRevertedVersion_of_version hv]
  by_cases hdeadline : rv.reason = "deadline"
  · obtain ⟨hreason, hat⟩ := hcovers hdeadline
    have hlt : now < x.at_ + REVERTED_RETRY_COOLDOWN_S.toInt :=
      hban.resolve_left (by simp [hreason])
    -- Both times are of the clock, so that the difference is the one of the integers.
    have hnow' : (Int64.ofInt now).toInt = now :=
      Int64.toInt_ofInt_of_le (by omega) (by omega)
    have hsub : (Int64.ofInt now - rv.at_).toInt = now - rv.at_.toInt := by
      have hlt := rv.at_.toInt_lt
      rw [Int64.toInt_sub, hnow']
      refine Int.bmod_eq_of_le ?_ ?_ <;> omega
    simp only [hdeadline, ne_eq, not_true_eq_false, decide_false, Bool.false_or, decide_eq_true_eq]
    rw [Int64.lt_iff_toInt_lt, hsub]
    omega
  · simp [hdeadline]

/-- The record `rv?` is the one of the verdict. (A record without a version is none.) -/
def RecordedBy (x : Verdict) (rv? : Option RevertedInfo) : Prop :=
  x.version ≠ "" → ∃ rv, rv? = some rv ∧ rv.version = x.version ∧ rv.reason = x.reason ∧
    x.at_ ≤ rv.at_.toInt

/-- A verdict that the record names is covered by it. -/
theorem RecordedBy.covered (h : x.RecordedBy rv?) : Covered rv? now x := by
  by_cases hversion : x.version = ""
  · exact .inl hversion
  · obtain ⟨rv, hrv, hv, hreason, hat⟩ := h hversion
    exact .inr (.inr ⟨rv, hrv, hv, fun hd => ⟨by rw [← hreason, hd], hat⟩⟩)

/-- A record that is rewritten when it may be goes on covering what it covered. -/
theorem Covered.rewrite {old? : Option RevertedInfo} (h : Covered old? now x)
    (hr : Replaceable old? y) (hy : y.RecordedBy rv?) (hnow : now ≤ y.at_) (hx : x.at_ ≤ now) :
    Covered rv? y.at_ x := by
  rcases h.mono hnow with h | h | ⟨old, hold, hv, hcovers⟩
  · exact .inl h
  · exact .inr (.inl h)
  rcases hr old hold with ⟨hsame, hsoft⟩ | ⟨hdeadline, hexpired⟩
  · by_cases hversion : y.version = ""
    · exact .inl (by rw [← hv, hsame, hversion])
    obtain ⟨rv, hrv, hrv', hreason, hat⟩ := hy hversion
    refine .inr (.inr ⟨rv, hrv, by rw [hrv', ← hsame, hv], fun hd => ?_⟩)
    have hold := hcovers (hsoft (by rw [← hreason, hd]))
    exact ⟨hold.1, by omega⟩
  · have hold := hcovers hdeadline
    exact .inr (.inl ⟨hold.1, by omega⟩)

end Verdict

/-! ### The device -/

/-- A process does a task. It reads the clock between `since` and `upTo`. -/
structure Happening (β : Type) where
  task : Task
  proc : Process
  inProgress : Bool := false
  since : Int
  upTo : Int
  answers : List (Choice β)

/-- The files of a device, the watchdogs its processes have made, and the verdicts passed. -/
structure Ledger (β : Type) where
  world : World β
  watchdogs : List UpdateWatchdog := []
  verdicts : List Verdict := []
  clock : Int

section Device

variable {β : Type} (host : Host β) (cast : Json.FloatCast) (f : Fractions) (dir : Path)

/-- The clock is read between `since` and `upTo` in every operation that reads it. -/
def ClockIn (since upTo : Int) (o : SysOp β) (c : Choice β) : Prop :=
  o = .time → since ≤ c.number ∧ c.number ≤ upTo

/-- The record of `dir` can be read: the operation that reads it does not fail. -/
def ReadsRecord (o : SysOp β) (c : Choice β) : Prop := o = .read (revertedFile dir) → c.error = none

/-- The operations that write a record or restore a backup work. -/
def VitalWorks (o : SysOp β) (c : Choice β) : Prop := o.vital = true → c.error = none

namespace Ledger

variable (s : Ledger β) (e : Happening β)

/-- The world of the process. Its history of renames begins here. -/
def enter : World β :=
  { s.world with proc := e.proc, inProgress := e.inProgress, renamed := [] }

/-- The task as far as its answers go, with the world it has reached. -/
def ended : SysM β (Option UpdateWatchdog) × World β :=
  (hostMachine host).after e.answers (e.task.prog host cast f dir, s.enter e)

/-- The trial that was rolled back: its backup was renamed onto the executable. -/
def rolledBack : Option (UpdateMarker × String) :=
  (e.task.trial dir (s.enter e)).filter fun (m, _) =>
    (m.prevBinary, e.proc.binaryPath) ∈ (s.ended host cast f dir e).2.renamed

/-- The device after one task: its files, the watchdogs that are left, and a verdict more when the
task has renamed the backup over the binary. -/
def step : Ledger β where
  world := (s.ended host cast f dir e).2
  watchdogs :=
    match (s.ended host cast f dir e).1 with
    | .ret (some wd) => wd :: s.watchdogs
    | _ => s.watchdogs
  verdicts :=
    match s.rolledBack host cast f dir e with
    | some (m, reason) => ⟨m.toVersion, reason, e.since⟩ :: s.verdicts
    | none => s.verdicts
  clock := e.upTo

/-- The device after a list of happenings, one after another from the left. -/
def run (es : List (Happening β)) : Ledger β := es.foldl (step host cast f dir) s

/-- The request that a poll builds at the end of its cycle, and none for every other task. -/
def asks : Option ApplyRequest :=
  match e.task with
  | .poll build p user =>
    match ((hostMachine host).after e.answers (p.pollIn cast f dir build user, s.enter e)).1 with
    | .ret r => r.2
    | _ => none
  | _ => none

/-- The task may happen: the clock does not go back, the watchdog is one of a process before, and a
rollback is not interrupted. -/
structure Allows : Prop where
  clock : s.clock ≤ e.since ∧ e.since ≤ e.upTo ∧ e.upTo < 2 ^ 63
  times : (hostMachine host).Admits (ClockIn e.since e.upTo) e.answers
    (e.task.prog host cast f dir, s.enter e)
  runs : e.proc.RunsIn dir
  watchdog : ∀ wd, e.task.watchdog? = some wd → wd ∈ s.watchdogs
  uninterrupted : s.rolledBack host cast f dir e ≠ none → (s.ended host cast f dir e).1.Done

/-- The record is kept: a poll can read it, and a rollback writes it, and rewrites one that is no
longer needed. -/
structure Keeps : Prop where
  readable : ∀ build p user, e.task = .poll build p user →
    (hostMachine host).Admits (ReadsRecord dir) e.answers
      (p.pollIn cast f dir build user, s.enter e)
  recorded : ∀ m reason, s.rolledBack host cast f dir e = some (m, reason) →
    (hostMachine host).Admits VitalWorks e.answers (e.task.prog host cast f dir, s.enter e) ∧
      Verdict.Replaceable (s.world.reverted dir) ⟨m.toVersion, reason, e.since⟩

/-- Every happening of the run satisfies `P` in the state in which it happens. -/
def Along (P : Ledger β → Happening β → Prop) : Ledger β → List (Happening β) → Prop
  | _, [] => True
  | s, e :: es => P s e ∧ Along P (s.step host cast f dir e) es

/-- Every happening of the run is allowed and keeps the record. -/
def Regular : List (Happening β) → Prop :=
  s.Along host cast f dir fun s e => s.Allows host cast f dir e ∧ s.Keeps host cast f dir e

end Ledger

end Device

/-! ### The invariant -/

section Run

variable {β : Type} {host : Host β} {cast : Json.FloatCast} {f : Fractions} {dir : Path}
  {s : Ledger β} {e : Happening β}

/-- Every verdict so far is covered by the record, and the markers on the disk and in the watchdogs
have a version to report. -/
structure Ledger.Inv (dir : Path) (s : Ledger β) : Prop where
  clock : 0 ≤ s.clock
  marker : ∀ m, s.world.marker dir = some m → m.Named
  watchdogs : ∀ wd ∈ s.watchdogs, wd.stateDir = dir ∧ wd.marker.Named
  past : ∀ x ∈ s.verdicts, 0 ≤ x.at_ ∧ x.at_ ≤ s.clock
  covered : ∀ x ∈ s.verdicts, Verdict.Covered (s.world.reverted dir) s.clock x

/-- Between two tasks the invariant gives what a task needs at its beginning. -/
theorem Ledger.Inv.entered {L : Layout} (h : s.Inv L.stateDir)
    (hexe : e.proc.binaryPath = L.path .install)
    (hbackup : ∀ install, L.path .install ≠ prevPath install) : Entered L (s.enter e) :=
  ⟨rfl, hexe, hbackup, h.marker⟩

/-- A task has rolled back when it has a trial and its rename has happened. -/
theorem Ledger.rolledBack_eq_some {m : UpdateMarker} {reason : String} :
    s.rolledBack host cast f dir e = some (m, reason) ↔
      e.task.trial dir (s.enter e) = some (m, reason) ∧
        (m.prevBinary, e.proc.binaryPath) ∈ (s.ended host cast f dir e).2.renamed := by
  rw [rolledBack, Option.filter_eq_some_iff]
  exact and_congr_right fun _ => decide_eq_true_iff

/-- What a happening has passed, against answers of `A`. -/
theorem Ledger.Inv.passed {L : Layout} {A : SysOp β → Choice β → Prop} (h : s.Inv L.stateDir)
    (hw : Entered L (s.enter e))
    (ha : s.Allows host cast f L.stateDir e) (hA : (hostMachine host).Admits A e.answers
      (e.task.prog host cast f L.stateDir, s.enter e)) :
    Passed L A (e.task.trial L.stateDir (s.enter e)) (s.enter e) False
        (s.ended host cast f L.stateDir e).2 ∧
      ∀ r, (s.ended host cast f L.stateDir e).1.result = some r →
        TaskEnds L A (e.task.trial L.stateDir (s.enter e)) (s.enter e) r
          (s.ended host cast f L.stateDir e).2 := by
  have hspec : cwp (hostMachine host) A
      (Passed L A (e.task.trial L.stateDir (s.enter e)) (s.enter e) False)
      (e.task.prog host cast f L.stateDir)
      (TaskEnds L A (e.task.trial L.stateDir (s.enter e)) (s.enter e)) (s.enter e) :=
    task_passed hw fun wd hwd => h.watchdogs wd (ha.watchdog wd hwd)
  exact ⟨cwp_after_inv hspec hA, ensures_of_cwp hspec e.answers hA⟩

/-- One happening keeps the invariant that the record covers every verdict, by the cases of the
task. -/
theorem Ledger.Inv.step (h : s.Inv dir) (ha : s.Allows host cast f dir e)
    (hk : s.Keeps host cast f dir e) : (s.step host cast f dir e).Inv dir := by
  obtain ⟨L, rfl, hexe, hbackup⟩ := ha.runs
  have hw := h.entered hexe hbackup
  obtain ⟨hsince, hupTo, hmax⟩ := ha.clock
  have hclock := h.clock
  have hpassed := h.passed hw ha ha.times
  have watchdogs : ∀ wd ∈ (s.step host cast f L.stateDir e).watchdogs,
      wd.stateDir = L.stateDir ∧ wd.marker.Named := by
    intro wd hwd
    simp only [Ledger.step] at hwd
    split at hwd
    · rename_i wd' hret
      rcases List.mem_cons.mp hwd with rfl | hwd
      · exact (hpassed.2 _ (by rw [hret]; rfl)).2 wd rfl
      · exact h.watchdogs wd hwd
    · exact h.watchdogs wd hwd
  have marker := hpassed.1.marker hw
  cases hrolled : s.rolledBack host cast f L.stateDir e with
  | none =>
    -- No roll-back in this happening: the record is what it was, for no roll-back was recorded.
    have hverdicts : (s.step host cast f L.stateDir e).verdicts = s.verdicts := by
      simp only [Ledger.step, hrolled]
    have hreverted : (s.step host cast f L.stateDir e).world.reverted L.stateDir =
        s.world.reverted L.stateDir := by
      cases hpassed.1 with
      | spared reverted _ _ =>
        show World.reverted (s.ended host cast f L.stateDir e).2 L.stateDir = _
        rw [World.reverted, L.revertedFile_stateDir, reverted]
        rfl
      | rolled m reason ht hm hne u hu hrec _ =>
        have hmem := Passed.renamed_of_recording hw hm hne hu hrec
        -- A task that recorded one renamed the record, and the ledger would have seen it.
        rw [Ledger.rolledBack_eq_some.mpr ⟨ht, hmem⟩] at hrolled
        cases hrolled
    refine ⟨by show 0 ≤ e.upTo; omega, marker, watchdogs, fun x hx => ?_, fun x hx => ?_⟩
    · rw [hverdicts] at hx
      have := h.past x hx
      exact ⟨this.1, by show x.at_ ≤ e.upTo; omega⟩
    · rw [hverdicts] at hx
      rw [hreverted]
      exact (h.covered x hx).mono (by show s.clock ≤ e.upTo; omega)
  | some trial =>
    -- One roll-back: the new verdict is the one on record, and it covers the older verdicts as
    -- far as the rewriting keeps them.
    obtain ⟨m, reason⟩ := trial
    obtain ⟨hbenign, hreplace⟩ := hk.recorded m reason hrolled
    have hverdicts : (s.step host cast f L.stateDir e).verdicts =
        ⟨m.toVersion, reason, e.since⟩ :: s.verdicts := by
      simp only [Ledger.step, hrolled]
    have hrecorded : Verdict.RecordedBy ⟨m.toVersion, reason, e.since⟩
        ((s.step host cast f L.stateDir e).world.reverted L.stateDir) := by
      obtain ⟨ht, hmem⟩ := Ledger.rolledBack_eq_some.mp hrolled
      have hend : ∃ r, (s.ended host cast f L.stateDir e).1.result = some r := by
        have hdone := ha.uninterrupted (by simp [hrolled])
        revert hdone
        cases (s.ended host cast f L.stateDir e).1 with
        | ret a => exact fun _ => ⟨_, rfl⟩
        | throw e => exact fun _ => ⟨_, rfl⟩
        | call o k => exact False.elim
      obtain ⟨r, hr⟩ := hend
      cases ((h.passed hw ha (admits_and ha.times hbenign)).2 r hr).1 with
      | spared _ _ kept => exact absurd hmem (kept m reason ht)
      | rolled m' reason' ht' _ _ _ _ _ recorded =>
        obtain ⟨rfl, rfl⟩ : m = m' ∧ reason = reason' := by simpa [ht] using ht'
        obtain ⟨-, c, hc, hfile⟩ := recorded trivial fun o ho => by
          rintro ⟨c, e, hc, he⟩
          rw [hc.2 ho] at he
          cases he
        obtain ⟨hlow, hhigh⟩ := hc.1 rfl
        -- The time on record is the clock read during the happening, so it is not before its
        -- start.
        refine fun hversion => ⟨m.reverted reason (Int64.ofInt c.number), ?_, rfl, rfl, ?_⟩
        · show World.reverted (s.ended host cast f L.stateDir e).2 L.stateDir = _
          rw [World.reverted, L.revertedFile_stateDir, hfile.files]
          simp [Layout.revertedContent, Content.parse, Except.toOption,
            RevertedInfo.fromJson_toJson _ (show (m.reverted reason _).version ≠ "" from hversion)]
        · show e.since ≤ (Int64.ofInt c.number).toInt
          rwa [Int64.toInt_ofInt_of_le (by omega) (by omega)]
    refine ⟨by show 0 ≤ e.upTo; omega, marker, watchdogs, fun x hx => ?_, fun x hx => ?_⟩
    · rw [hverdicts] at hx
      rcases List.mem_cons.mp hx with rfl | hx
      · exact ⟨by show 0 ≤ e.since; omega, hupTo⟩
      · have := h.past x hx
        exact ⟨this.1, by show x.at_ ≤ e.upTo; omega⟩
    · rw [hverdicts] at hx
      rcases List.mem_cons.mp hx with rfl | hx
      · exact hrecorded.covered
      · exact ((h.covered x hx).rewrite hreplace hrecorded hsince (h.past x hx).2).mono hupTo

/-- After every regular run the invariant holds, by induction on the happenings. -/
theorem Ledger.Inv.run {es : List (Happening β)} (h : s.Inv dir)
    (hes : s.Regular host cast f dir es) : (s.run host cast f dir es).Inv dir := by
  induction es generalizing s with
  | nil => exact h
  | cons e es ih => exact ih (h.step hes.1.1 hes.1.2) hes.2

/-- What holds at every step of a run may be weakened. -/
theorem Ledger.Along.mono {P P' : Ledger β → Happening β → Prop} {es : List (Happening β)}
    (h : s.Along host cast f dir P es) (hP : ∀ s e, P s e → P' s e) :
    s.Along host cast f dir P' es := by
  induction es generalizing s with
  | nil => trivial
  | cons e es ih => exact ⟨hP _ _ h.1, ih h.2⟩

/-- A condition on every step is decided step by step. -/
instance decidableAlong {P : Ledger β → Happening β → Prop} [∀ s e, Decidable (P s e)] :
    (s : Ledger β) → (es : List (Happening β)) → Decidable (s.Along host cast f dir P es)
  | _, [] => isTrue trivial
  | s, e :: es =>
    have : Decidable ((s.step host cast f dir e).Along host cast f dir P es) :=
      decidableAlong (s.step host cast f dir e) es
    inferInstanceAs (Decidable (P s e ∧ (s.step host cast f dir e).Along host cast f dir P es))

/-- A condition on every step of a run holds on both of its parts. -/
theorem Ledger.Along.append {P : Ledger β → Happening β → Prop} {es es' : List (Happening β)}
    (h : s.Along host cast f dir P (es ++ es')) :
    s.Along host cast f dir P es ∧ (s.run host cast f dir es).Along host cast f dir P es' := by
  induction es generalizing s with
  | nil => exact ⟨trivial, h⟩
  | cons e es ih =>
    obtain ⟨hes, hes'⟩ := ih h.2
    exact ⟨⟨h.1, hes⟩, hes'⟩

/-- A poll that can read the record does not ask for a banned version. -/
theorem Ledger.Inv.not_asks (h : s.Inv dir) (ha : s.Allows host cast f dir e)
    (hk : s.Keeps host cast f dir e) {req : ApplyRequest}
    (hreq : s.asks host cast f dir e = some req) {x : Verdict} (hx : x ∈ s.verdicts) :
    ¬ x.Bans e.upTo req.version := by
  obtain ⟨task, proc, inProgress, since, upTo, answers⟩ := e
  cases task with
  | poll build p user =>
    obtain ⟨hsince, hupTo, hmax⟩ := ha.clock
    have hclock := h.clock
    obtain ⟨hpast, -⟩ := h.past x hx
    intro hbans
    unfold Ledger.asks at hreq
    simp only at hreq hsince hupTo hmax hbans
    split at hreq
    · rename_i r hret
      have hadmits := admits_and (admits_of_bind ha.times) (hk.readable build p user rfl)
      obtain ⟨settings, req'⟩ := r
      obtain rfl : req' = some req := hreq
      obtain ⟨man, hchosen, rfl⟩ :=
        (cwp_after_ret upToRequest_spec hadmits hret).2 settings req rfl
      have hversion : man.version ≠ "" := by
        obtain ⟨_, body, -, -, hman⟩ := hchosen.published
        have hvalid := hchosen.valid
        rw [hman] at hvalid ⊢
        exact Manifest.version_ne_of_valid hvalid
      -- A reading of the clock is banned as well, being no later.
      have skips (now : Int) (hlow : since ≤ now) (hhigh : now ≤ upTo) :
          ∃ rv, s.world.reverted dir = some rv ∧ skipRevertedVersion rv man.version
            (Int64.ofInt now) REVERTED_RETRY_COOLDOWN_S = true := by
        refine ((h.covered x hx).mono (by omega)).skips hpast (by omega) (by omega)
          ⟨hbans.1, hbans.2.imp_right fun hlt => by omega⟩ hversion
      rcases hchosen.notSkipped with ⟨c, err, hc, herr⟩ | hnone | ⟨rv, c, hrv, hc, hskip⟩
      · rw [hc.2 rfl] at herr
        cases herr
      · obtain ⟨rv, hrv, -⟩ := skips upTo hupTo (Int.le_refl _)
        rw [show s.world.reverted dir = none from hnone] at hrv
        cases hrv
      · obtain ⟨rv', hrv', hskips⟩ := skips c.number (hc.1 rfl).1 (hc.1 rfl).2
        obtain rfl : rv = rv' :=
          Option.some.inj (Eq.trans (show s.world.reverted dir = some rv from hrv).symm hrv')
        rw [hskips] at hskip
        cases hskip
    · cases hreq
  | _ => cases hreq

/-- In every run where the record can be read and written, and no rollback rewrites a record that
is still needed, no poll asks for a version that an earlier verdict bans. -/
theorem banned_not_asked (host : Host β) (cast : Json.FloatCast) (f : Fractions) (dir : Path)
    {w : World β} {clock : Int} (hclock : 0 ≤ clock)
    (hmarker : ∀ m, w.marker dir = some m → m.Named) (before after : List (Happening β))
    (hrun : Ledger.Regular host cast f dir { world := w, clock := clock }
      (before ++ e :: after)) {req : ApplyRequest}
    (hreq : (Ledger.run host cast f dir { world := w, clock := clock } before).asks host cast f dir
      e = some req) :
    ∀ x ∈ (Ledger.run host cast f dir { world := w, clock := clock } before).verdicts,
      ¬ x.Bans e.upTo req.version := by
  obtain ⟨hbefore, ⟨ha, hk⟩, -⟩ := Ledger.Along.append hrun
  have hstart : Ledger.Inv dir ({ world := w, clock := clock } : Ledger β) :=
    ⟨hclock, hmarker, nofun, nofun, nofun⟩
  exact fun x hx => (hstart.run hbefore).not_asks ha hk hreq hx

end Run

/-! ### Sample runs -/

/-- What is easy to check of a happening: its answers are all of the time it takes. -/
structure Ledger.Plain (s : Ledger Nat) (e : Happening Nat) : Prop where
  clock : s.clock ≤ e.since ∧ e.since ≤ e.upTo ∧ e.upTo < 2 ^ 63
  times : ∀ c ∈ e.answers, e.since ≤ c.number ∧ c.number ≤ e.upTo
  exe : e.proc.exe = some Layout.system.install
  watchdog : ∀ wd ∈ e.task.watchdog?, wd ∈ s.watchdogs
  ended : (s.ended sampleHost .wrap (deviceFraction fun _ => []) Layout.system.stateDir e).1.Done

/-- A plain happening of the samples is an allowed one. -/
theorem Ledger.Plain.allows {s : Ledger Nat} {e : Happening Nat} (h : s.Plain e) :
    s.Allows sampleHost .wrap (deviceFraction fun _ => []) Layout.system.stateDir e where
  clock := h.clock
  times := by
    have hall : ∀ c ∈ e.answers, ∀ o, ClockIn e.since e.upTo o c := fun c hc _ _ => h.times c hc
    exact admits_of_forall _ hall _
  runs := by
    refine ⟨Layout.system, rfl, by rw [Process.binaryPath, h.exe]; rfl, fun install => ?_⟩
    refine ne_of_lastChar ?_
    rw [prevPath, lastChar_append _ (by decide)]
    decide
  watchdog wd hwd := h.watchdog wd hwd
  uninterrupted _ := h.ended

instance (s : Ledger Nat) (e : Happening Nat) : Decidable (s.Plain e) :=
  decidable_of_iff ((s.clock ≤ e.since ∧ e.since ≤ e.upTo ∧ e.upTo < 2 ^ 63) ∧
      (∀ c ∈ e.answers, e.since ≤ c.number ∧ c.number ≤ e.upTo) ∧
      e.proc.exe = some Layout.system.install ∧
      (∀ wd ∈ e.task.watchdog?, wd ∈ s.watchdogs) ∧
      (s.ended sampleHost .wrap (deviceFraction fun _ => []) Layout.system.stateDir e).1.Done)
    ⟨fun ⟨h₁, h₂, h₃, h₄, h₅⟩ => ⟨h₁, h₂, h₃, h₄, h₅⟩,
      fun ⟨h₁, h₂, h₃, h₄, h₅⟩ => ⟨h₁, h₂, h₃, h₄, h₅⟩⟩

/-- Version 2 has failed three starts, and the backup is there. -/
def sampleFailing : Ledger Nat where
  world := { sampleTrial Layout.system.install with
    entry := Function.update (sampleTrial Layout.system.install).entry (Layout.system.path .state)
      (some (.json { sampleMarker with attempts := 3 }.toJson, true)) }
  clock := 0

/-- A task of the process `pid` at the time 0. After the given answers every call works. -/
def sampleHappening (task : Task) (pid : Nat) (answers : List (Choice Nat)) : Happening Nat where
  task := task
  proc := { pid := pid, exe := some Layout.system.install }
  since := 0
  upTo := 0
  answers := answers ++ List.replicate 30 .ok

/-- A poll that finds the version `version` in the manifest. -/
def samplePoll (version : String) : Happening Nat :=
  sampleHappening (.poll sampleBuild samplePoller sampleRoot) 5
    [.ok, .body (.response 200 (some (.obj [("version", .str version)])))]

/-- The run of a device in the system directory. -/
def sampleRun (es : List (Happening Nat)) : Ledger Nat :=
  sampleFailing.run sampleHost .wrap (deviceFraction fun _ => []) Layout.system.stateDir es

/-- The request of a poll after the run. -/
def sampleAsks (es : List (Happening Nat)) (version : String) : Option ApplyRequest :=
  (sampleRun es).asks sampleHost .wrap (deviceFraction fun _ => []) Layout.system.stateDir
    (samplePoll version)

/-- Version 2 is rolled back for a crash loop, and version 3 for a failed authentication. -/
def sampleFailures : List (Happening Nat) :=
  [sampleHappening (.boot "2") 2 [],
    sampleHappening (.boot "1") 3 [],
    sampleHappening (.event (.ofMarker Layout.system.stateDir "1"
      (some { sampleMarker with attempts := 4 }.done)) .streamsReady "") 3 [],
    sampleHappening (.apply sampleBuild (sampleRequest "3")) 3
      [.ok, .ok, .ok, .http (.response 200 1) (some (.image 3))],
    sampleHappening (.boot "3") 4 [],
    sampleHappening (.event (.ofMarker Layout.system.stateDir "3"
      (some { sampleMarker with toVersion := "3", attempts := 1 })) .authFailed "") 4 []]

/-- After one failure a poll asks for the version 3. -/
theorem banned_not_asked_sample :
    (sampleAsks (sampleFailures.take 1) "3").map ApplyRequest.version = some "3" ∧
      ∀ x ∈ (sampleRun (sampleFailures.take 1)).verdicts, ¬ x.Bans 0 "3" := by
  have works (e : Happening Nat) (he : ∀ c ∈ e.answers, c.error = none)
      (A : SysOp Nat → Choice Nat → Prop) (hA : ∀ o c, c.error = none → A o c) {α : Type}
      (s : SysM Nat α × World Nat) : (hostMachine sampleHost).Admits A e.answers s :=
    admits_of_forall _ (fun c hc o => hA o c (he c hc)) s
  have hreq : sampleAsks (sampleFailures.take 1) "3" = some (samplePoller.request sampleBuild {}
      (.parse .wrap (some (.obj [("version", .str "3")])))) := by decide +kernel
  refine ⟨by rw [hreq]; rfl, ?_⟩
  -- The run has a boot and a poll. Both are regular, since every answer in them works.
  refine banned_not_asked sampleHost .wrap (deviceFraction fun _ => []) Layout.system.stateDir
    (w := sampleFailing.world) (e := samplePoll "3") (Int.le_refl 0) ?_ (sampleFailures.take 1) []
    ?_ hreq
  · intro m hm
    have hfile : sampleFailing.world.files (Layout.system.path .state) =
        some (.json { sampleMarker with attempts := 3 }.toJson) := by
      simp [sampleFailing, World.files_eq]
    rw [World.marker_of_files hfile] at hm
    cases hm
    exact .inr ⟨_, rfl⟩
  · refine ⟨⟨Ledger.Plain.allows (by decide +kernel), nofun, fun m reason _ => ⟨?_, ?_⟩⟩,
      ⟨Ledger.Plain.allows (by decide +kernel), fun _ _ _ _ => ?_, fun m reason h => ?_⟩, trivial⟩
    · exact works (sampleHappening (.boot "2") 2 []) (by decide) VitalWorks (fun _ _ he _ => he) _
    · rw [show World.reverted _ _ = none from by decide +kernel]
      nofun
    · exact works (samplePoll "3") (by decide) (ReadsRecord Layout.system.stateDir)
        (fun _ _ he _ => he) _
    · cases h

/-- Two versions fail one after the other. The poll asks for the first one again. -/
theorem not_banned_sample :
    sampleFailing.Along sampleHost .wrap (deviceFraction fun _ => []) Layout.system.stateDir
        (fun s e => s.Allows sampleHost .wrap (deviceFraction fun _ => []) Layout.system.stateDir e)
        (sampleFailures ++ [samplePoll "2"]) ∧
      (sampleAsks sampleFailures "2").map ApplyRequest.version = some "2" ∧
      ⟨"2", "crash_loop", 0⟩ ∈ (sampleRun sampleFailures).verdicts := by
  refine ⟨Ledger.Along.mono (P := Ledger.Plain) ?_ fun s e h => h.allows, ?_⟩
  · decide +kernel
  · decide +kernel

end ThinrAgent
