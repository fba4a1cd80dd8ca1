import ThinrAgent.Runtime.UpdateWatchdog

/-!
# `ThinrAgent.Proofs.Records`: do the records of the watchdog survive the disk?

A marker of any field values is read back from its text as it was, with any library that reads what
it writes (`UpdateMarker.parse_dump`), and so is a record of a reverted update that has a version
(`RevertedInfo.parse_dump`). A boot that counts itself and a rollback that is done change one field
of the marker on the disk (`recordsSurvive`), also after any number of boots (`parse_recount`).
-/

set_option autoImplicit false

namespace ThinrAgent

/-- The text of a marker is an object without nested values. -/
theorem UpdateMarker.toJson_flat (m : UpdateMarker) : ∃ kvs, m.toJson = .obj kvs ∧
    Json.Flat kvs := by
  refine ⟨_, rfl, ?_, ?_⟩
  · show ["phase", "from", "to", "prev_binary", "started_at", "attempts", "deadline_s",
      "report_attempts"].Nodup
    decide
  · intro e he
    have h₁ := m.startedAt.le_toInt
    have h₂ := m.startedAt.toInt_lt
    have h₃ := m.attempts.le_toInt
    have h₄ := m.attempts.toInt_lt
    have h₅ := m.deadlineS.le_toInt
    have h₆ := m.deadlineS.toInt_lt
    have h₇ := m.reportAttempts.le_toInt
    have h₈ := m.reportAttempts.toInt_lt
    simp only [List.mem_cons, List.not_mem_nil, or_false] at he
    rcases he with rfl | rfl | rfl | rfl | rfl | rfl | rfl | rfl <;>
      simp only [Json.IsScalar] <;> omega

/-- The text of a record is an object without nested values. -/
theorem RevertedInfo.toJson_flat (r : RevertedInfo) : ∃ kvs, r.toJson = .obj kvs ∧
    Json.Flat kvs := by
  refine ⟨_, rfl, ?_, ?_⟩
  · show ["version", "restored", "reason", "at"].Nodup
    decide
  · intro e he
    have h₁ := r.at_.le_toInt
    have h₂ := r.at_.toInt_lt
    simp only [List.mem_cons, List.not_mem_nil, or_false] at he
    rcases he with rfl | rfl | rfl | rfl
    · trivial
    · trivial
    · trivial
    · simp only [Json.IsScalar]
      omega

section Text
variable (lib : JsonText)

/-- A marker is read back from its text as it was. -/
theorem UpdateMarker.parse_dump (m : UpdateMarker) : parse lib (m.dump lib) = .ok (some m) := by
  obtain ⟨kvs, hjson, hflat⟩ := m.toJson_flat
  obtain ⟨kvs', hperm, hparse⟩ := lib.parse_dump kvs hflat
  rw [parse, dump, hjson, hparse]
  show fromJson (.obj kvs') = _
  rw [fromJson_perm hperm hflat.nodup, ← hjson, fromJson_toJson]

/-- A record with a version is read back from its text as it was. -/
theorem RevertedInfo.parse_dump {r : RevertedInfo} (hversion : r.version ≠ "") :
    parse lib (r.dump lib) = .ok (some r) := by
  obtain ⟨kvs, hjson, hflat⟩ := r.toJson_flat
  obtain ⟨kvs', hperm, hparse⟩ := lib.parse_dump kvs hflat
  rw [parse, dump, hjson, hparse]
  show fromJson (.obj kvs') = _
  rw [fromJson_perm hperm hflat.nodup, ← hjson, fromJson_toJson r hversion]

/-- A boot reads the marker, counts itself and writes the marker back. -/
def recount (text : String) : String :=
  match UpdateMarker.parse lib text with
  | .ok (some m) => m.counted.dump lib
  | _ => text

/-- Some boots change the number of attempts and nothing else. -/
theorem parse_recount (m : UpdateMarker) (k : Nat) :
    UpdateMarker.parse lib ((recount lib)^[k] (m.dump lib)) =
      .ok (some { m with attempts := m.attempts + Int32.ofNat k }) := by
  induction k with
  | zero =>
    rw [Function.iterate_zero_apply, UpdateMarker.parse_dump]
    simp
  | succ k ih =>
    rw [Function.iterate_succ_apply', recount, ih]
    simp only [UpdateMarker.parse_dump, UpdateMarker.counted, Int32.ofNat_add, Int32.add_assoc]
    rfl

/-- What a library keeps of the records of the watchdog: each one is read back as it was printed,
also after its attempts or its phase have changed, and after any number of starts. -/
structure RecordsSurvive : Prop where
  marker : ∀ m : UpdateMarker, UpdateMarker.parse lib (m.dump lib) = .ok (some m)
  reverted : ∀ r : RevertedInfo, r.version ≠ "" →
    RevertedInfo.parse lib (r.dump lib) = .ok (some r)
  counted : ∀ (m : UpdateMarker) (text : String), UpdateMarker.parse lib text = .ok (some m) →
    UpdateMarker.parse lib (m.counted.dump lib) =
      .ok (some { m with attempts := m.attempts + 1 })
  rephased : ∀ (m : UpdateMarker) (text : String) (phase : UpdatePhase),
    UpdateMarker.parse lib text = .ok (some m) →
      UpdateMarker.parse lib ({ m with phase := phase }.dump lib) =
        .ok (some { m with phase := phase })
  boots : ∀ (m : UpdateMarker) (k : Nat),
    UpdateMarker.parse lib ((recount lib)^[k] (m.dump lib)) =
      .ok (some { m with attempts := m.attempts + Int32.ofNat k })

end Text

/-- The records survive the disk, with any library that reads what it writes: the marker and the
record of a rollback are read back as they were, field by field. -/
theorem recordsSurvive (lib : JsonText) : RecordsSurvive lib where
  marker := UpdateMarker.parse_dump lib
  reverted := fun _ hversion => RevertedInfo.parse_dump lib hversion
  counted := fun m _ _ => UpdateMarker.parse_dump lib m.counted
  rephased := fun m _ phase _ => UpdateMarker.parse_dump lib { m with phase := phase }
  boots := parse_recount lib

/-- The round trip of a marker with a quote and a newline in a string, which need escapes. -/
theorem recordsSurvive_sample : UpdateMarker.parse JsonText.compact
    (UpdateMarker.dump JsonText.compact
      { phase := .pending, fromVersion := "v\"1\n", attempts := -1 })
      = .ok (some { phase := .pending, fromVersion := "v\"1\n", attempts := -1 }) :=
  (recordsSurvive JsonText.compact).marker _

end ThinrAgent
