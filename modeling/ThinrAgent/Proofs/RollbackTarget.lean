import ThinrAgent.Proofs.Trial

/-!
# `ThinrAgent.Proofs.RollbackTarget`: where a rollback puts the backup

The marker records the backup and not the path that was swapped. The target of the restoring
rename is the executable path of the process that rolls back, as the kernel reports it then.
`restoresInstalled_iff` says when a rollback that reports success has restored the swapped
path: when that process runs the file at the swapped path. A process that runs another copy,
or whose executable has been replaced, moves the backup elsewhere. A process that runs the
backup itself renames it onto itself.
-/

set_option autoImplicit false

namespace ThinrAgent

open Effects

section
variable {β : Type} (L : Layout)

/-- From `w` to `w'` the backup in `w` came to the installed path, and went nowhere else. -/
def RestoresInstalled (w w' : World β) : Prop :=
  w'.files (L.path .install) = w.files (L.path .prev) ∧
    ∀ q, World.RenamedSince w w' (L.path .prev) q → q = L.path .install

variable {L}

/-- The state after the restoring rename satisfies `RestoresInstalled` exactly when the process runs
the installed path, or the backup of an installed binary that needs no restoring. -/
theorem restoresInstalled_of_recording {m : UpdateMarker} {reason : String} {w w' : World β}
    {target : Path} (h : L.Recording m reason (w.rename (L.path .prev) target) w') :
    RestoresInstalled L w w' ↔ target = L.path .install ∨
      target = L.path .prev ∧ w.files (L.path .install) = w.files (L.path .prev) := by
  have hinstall := h.files_install
  simp only [RestoresInstalled, h.renamedSince_prev]
  by_cases hprev : target = L.path .prev
  · -- A rename onto itself.
    subst hprev
    rw [World.rename, if_pos rfl] at hinstall
    simp [hinstall]
  · rw [World.rename, if_neg (Ne.symm hprev)] at hinstall
    simp only [hprev, false_and, or_false]
    constructor
    · rintro ⟨-, hq⟩
      exact hq target ⟨hprev, rfl⟩
    · rintro rfl
      refine ⟨?_, fun q hq => hq.2⟩
      rw [hinstall, World.files_eq, World.entry_move_dst]
      rfl

/-- A rollback that reports success restores the swapped path exactly when the process that
performs it runs the file at that path, or runs the backup and nothing was to be restored. -/
theorem restoresInstalled_iff (host : Host β) (m : UpdateMarker) (reason : String) (w : World β)
    (hprev : m.prevBinary = L.path .prev) (cs : List (Choice β))
    (hend : ((hostMachine host).after cs (doRollback L.stateDir m reason, w)).1 = .ret true) :
    RestoresInstalled L w ((hostMachine host).after cs (doRollback L.stateDir m reason, w)).2 ↔
      w.proc.binaryPath = L.path .install ∨ w.proc.binaryPath = L.path .prev ∧
        w.files (L.path .install) = w.files (L.path .prev) := by
  have hspec : cwp (hostMachine host) (anyAnswer _ _) (fun _ => True)
      (doRollback L.stateDir m reason) (fun r w' => r = .ok true →
        L.Recording m reason (w.rename (L.path .prev) w.proc.binaryPath) w') w := by
    rw [← Prog.bind_ret (doRollback L.stateDir m reason), ← hprev]
    exact wp_doRollback trivial (fun _ => ⟨trivial, by simp⟩) (fun _ => by simp)
      (fun _ _ _ => trivial) fun w' _ h _ => ⟨trivial, fun _ => h⟩
  exact restoresInstalled_of_recording
    (cwp_after_ret hspec (admits_anyAnswer _ cs _) hend rfl)

end

/-- A rollback of the sample trial in which nothing fails, by a process that runs `exe`. -/
def sampleRollback (exe : Path) : SysM Nat Bool × World Nat :=
  (hostMachine sampleHost).after (List.replicate 20 .ok)
    (doRollback Layout.system.stateDir sampleMarker "deadline", sampleTrial exe)

/-- The condition at the rollback that the installed service makes itself. -/
theorem restoresInstalled_iff_sample :
    RestoresInstalled .system (sampleTrial Layout.system.install)
        (sampleRollback Layout.system.install).2 ↔
      (sampleTrial Layout.system.install).proc.binaryPath = Layout.system.path .install ∨
        (sampleTrial Layout.system.install).proc.binaryPath = Layout.system.path .prev ∧
          (sampleTrial Layout.system.install).files (Layout.system.path .install)
            = (sampleTrial Layout.system.install).files (Layout.system.path .prev) :=
  restoresInstalled_iff sampleHost sampleMarker "deadline" (sampleTrial Layout.system.install) rfl
    (List.replicate 20 .ok) (Prog.result_eq_ok.mp (by decide +kernel))

/-- A copy of the binary in `/tmp` rolls back: the rollback reports success, and the failed
binary stays installed. -/
theorem not_restoresInstalled_sample :
    (sampleRollback "/tmp/thinr-agent").1.result = some (.ok true) ∧
      ¬ RestoresInstalled .system (sampleTrial "/tmp/thinr-agent")
        (sampleRollback "/tmp/thinr-agent").2 := by
  refine ⟨by decide +kernel, fun h => ?_⟩
  have himage := congrArg (Option.bind · Content.image?) h.1
  change (sampleRollback "/tmp/thinr-agent").2.image _ = (sampleTrial _).image _ at himage
  revert himage
  decide +kernel

end ThinrAgent
