import ThinrAgent.Proofs.Watchdog

/-!
# `ThinrAgent.Proofs.Trial`: the binary of a trial

`deliversOnly` is the environment whose downloads leave one binary at most, so that an update can
only swap in this one. When the binary reports another version than the marker names, a start of
it in which nothing fails deletes the marker and the backup (`checkBoot_deletes_of_ne`).
`Proofs.OpenTrial` says when a swap is put on trial.
-/

set_option autoImplicit false

namespace ThinrAgent

open Effects

section
variable {β : Type} (host : Host β) (L : Layout)

/-- The binaries a download can leave: only `b`. A download may also fail, or leave a file
that is no binary. -/
def deliversOnly (b : β) : SysOp β → Choice β → Prop
  | .httpDownload _ _, c => ∀ n, c.left = some (.image n) → n = b
  | _, _ => True

/-- An answer that leaves the binary, or none, is one of this environment. -/
theorem deliversOnly_of_left {b : β} {c : Choice β} (h : ∀ n, c.left = some (.image n) → n = b)
    (o : SysOp β) : deliversOnly b o c := by
  cases o with
  | httpDownload url dest => exact h
  | _ => trivial

variable {host L}

/-- A start of another version in which nothing fails deletes the marker and the backup. -/
theorem checkBoot_deletes_of_ne {A : SysOp β → Choice β → Prop} (hA : Benign A)
    (hread : ¬ CanFail A (.read (L.path .state))) (hremove : ∀ p, ¬ CanFail A (.remove p))
    {w : World β} {m : UpdateMarker} {version : String}
    (hm : w.files (L.path .state) = some (.json m.toJson)) (hp : m.phase = .pending)
    (hprev : m.prevBinary ≠ "") (hv : version ≠ m.toVersion) :
    cwp (hostMachine host) A (fun _ => True) (checkBoot L.stateDir version)
      (fun r w' => r = .ok .proceed ∧ w'.marker L.stateDir = none ∧
        w'.files m.prevBinary = none) w := by
  have hd := decideBoot_of_ne hp hv
  rw [← World.marker_of_files hm] at hd
  refine cwp_mono checkBoot_spec (fun _ _ => trivial) fun r w' _ hend => ?_
  have hbenign := hend.benign hA hread fun content hcontent => by
    rw [hm] at hcontent
    cases hcontent
    exact ⟨some m, Content.marker_toJson m⟩
  rw [Layout.bootDecision, hd] at hbenign
  have hdone := hbenign hremove
  exact ⟨hdone.1, World.marker_of_none hdone.2.1, hdone.2.2 hprev⟩

end

/-- The sample answers deliver only the binary 2. -/
theorem sampleAnswers_deliver {c : Choice Nat} (hc : c ∈ sampleAnswers) (o : SysOp Nat) :
    deliversOnly 2 o c := by
  simp only [sampleAnswers, List.mem_append, List.mem_cons, List.mem_replicate] at hc
  refine deliversOnly_of_left (fun n hn => ?_) o
  rcases hc with (rfl | rfl | rfl | rfl | hc) | ⟨-, rfl⟩ <;> simp_all [Choice.left]

/-- The sample answers let no operation fail. -/
theorem sampleAnswers_error {c : Choice Nat} (hc : c ∈ sampleAnswers) : c.error = none := by
  simp only [sampleAnswers, List.mem_append, List.mem_cons, List.mem_replicate] at hc
  rcases hc with (rfl | rfl | rfl | rfl | hc) | ⟨-, rfl⟩ <;> simp_all [Choice.error]

end ThinrAgent
