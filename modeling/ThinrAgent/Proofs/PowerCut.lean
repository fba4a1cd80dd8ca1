import ThinrAgent.Proofs.RollbackRecord

/-!
# `ThinrAgent.Proofs.PowerCut`: a power cut during an update

After a power cut a path holds one of the entries of its disk: the current one, or an older
one that no `fsync` of the directory has discarded. Data that was not made durable may be
anything. The marker is written by `writeAtomic`, which makes the data durable before the
rename. The downloaded binary and the backup are renamed without that, so the swap can survive
a cut that the data of the new binary does not (`powerCut_iff`).
-/

set_option autoImplicit false

namespace ThinrAgent

open Effects

section
variable {β : Type}

/-- What a power cut may leave of an entry: data that is not durable is lost to any data. -/
def Entry.Leaves : Entry β → Option (Content β) → Prop
  | none, v => v = none
  | some (content, true), v => v = some content
  | some (_, false), v => v ≠ none

/-- The files `f` may be found after a power cut in `w`. -/
def World.PowerCut (w : World β) (f : Files β) : Prop :=
  ∀ p, ∃ e ∈ w.disk p, Entry.Leaves e (f p)

/-- The installed binary is the complete old one, or the complete new one, and then the backup
of a pending marker that survived is the complete old one. -/
def Intact (L : Layout) (old new : Content β) (f : Files β) : Prop :=
  f (L.path .install) = some old ∨
    f (L.path .install) = some new ∧ ∀ content m, f (L.path .state) = some content →
      content.marker = .ok (some m) → m.phase = .pending → f m.prevBinary = some old

/-- The current files may survive as they are. -/
theorem Entry.leaves_self (e : Entry β) : e.Leaves (e.map Prod.fst) := by
  match e with
  | none => rfl
  | some (_, true) => rfl
  | some (_, false) => simp [Entry.Leaves]

/-- Where the current entry is not durable, a cut may leave any data. -/
theorem World.exists_powerCut {w : World β} {p : Path} {content : Content β}
    (h : w.entry p = some (content, false)) (v : Content β) :
    ∃ f, w.PowerCut f ∧ f p = some v := by
  classical
  refine ⟨Function.update w.files p (some v), fun q => ?_, Function.update_self ..⟩
  by_cases hq : q = p
  · subst hq
    exact ⟨w.entry q, List.mem_cons_self, by simp [h, Entry.Leaves]⟩
  · refine ⟨w.entry q, List.mem_cons_self, ?_⟩
    rw [Function.update_of_ne hq, World.files_eq]
    exact Entry.leaves_self _

/-- There is a text that two given contents do not hold, one of them a binary. -/
theorem exists_torn (old : Content β) (b : β) :
    ∃ v : Content β, v ≠ old ∧ v ≠ .image b := by
  by_cases h : (.raw "" : Content β) = old
  · exact ⟨.raw "-", fun h' => by rw [← h'] at h; simp at h, by simp⟩
  · exact ⟨.raw "", h, by simp⟩

variable {host : Host β} {L : Layout}

/-- Wherever the power is cut in an update that downloads `b` over a durable binary: every
outcome is intact exactly when the swap had not been issued. -/
theorem powerCut_iff (build : Build) (req : ApplyRequest) (old : Content β) (b : β) (w : World β)
    (hdir : req.stateDir = L.stateDir) (hexe : w.proc.binaryPath = L.path .install)
    (hdurable : w.disk (L.path .install) = [some (old, true)]) (cs : List (Choice β))
    (hcs : (hostMachine host).Admits (deliversOnly b) cs (applyWithWatchdog host build req, w))
    (w' : World β)
    (hw' : w' = ((hostMachine host).after cs (applyWithWatchdog host build req, w)).2) :
    (∀ f, w'.PowerCut f → Intact L old (.image b) f) ↔
      ¬ World.RenamedSince w w' (L.path .new) (L.path .install) := by
  have hreached := cwp_after_inv (applyWithWatchdog_spec hdir fun _ => hexe) hcs
  rw [← hw'] at hreached
  -- Before the swap only the old binary can be found.
  have before (hdisk : w'.disk (L.path .install) ⊆ w.disk (L.path .install)) :
      ∀ f, w'.PowerCut f → Intact L old (.image b) f := by
    intro f hf
    obtain ⟨e, he, hleaves⟩ := hf (L.path .install)
    have hold := hdisk he
    rw [hdurable, List.mem_singleton] at hold
    rw [hold] at hleaves
    exact .inl hleaves
  cases hreached with
  | refused hs =>
    refine iff_of_true (before (hs.disk _ (by simp))) fun hr => ?_
    exact List.not_mem_nil (hs.mem_of_renamedSince hr).1
  | unswapped _ h =>
    have hout : L.path .install ∉ L.path .state :: L.work w.proc.pid := by simp [Layout.work]
    exact iff_of_true (before (h.scratch.disk _ hout))
      fun hr => hout (h.scratch.mem_of_renamedSince hr).2
  | swapped b' _ _ _ h =>
    refine iff_of_false (fun hintact => ?_) (not_not_intro h.renamed)
    obtain ⟨v, hold, hnew⟩ := exists_torn old b
    obtain ⟨f, hf, hv⟩ := World.exists_powerCut h.install v
    rcases hintact f hf with hfile | ⟨hfile, -⟩
    · rw [hv] at hfile
      exact hold (Option.some.inj hfile)
    · rw [hv] at hfile
      exact hnew (Option.some.inj hfile)

end

/-- The condition at the sample update, when the power is cut after it has reported success. -/
theorem powerCut_iff_sample :
    (∀ f, (sampleUpdate "2").2.PowerCut f →
        Intact .system (.image 1) (.image 2) f) ↔
      ¬ World.RenamedSince sampleWorld (sampleUpdate "2").2 (Layout.system.path .new)
        (Layout.system.path .install) :=
  powerCut_iff sampleBuild (sampleRequest "2") (.image 1) 2 sampleWorld rfl rfl
    (by simp [sampleWorld, World.disk, World.ofFiles, Layout.path]) sampleAnswers
    (admits_of_forall _ (fun _ hc => sampleAnswers_deliver hc) _) _ rfl

/-- The power is cut after the sample update has reported success: the data of the installed
binary may be lost. -/
theorem not_intact_sample : ∃ f, (sampleUpdate "2").2.PowerCut f ∧
    ¬ Intact .system (.image 1) (.image 2) f := by
  have hentry : ((sampleUpdate "2").2.entry (Layout.system.path .install)).map Prod.snd
      = some false := by decide +kernel
  cases he : (sampleUpdate "2").2.entry (Layout.system.path .install) with
  | none => simp [he] at hentry
  | some e =>
    obtain ⟨content, durable⟩ := e
    rw [he] at hentry
    obtain rfl : durable = false := Option.some.inj hentry
    obtain ⟨f, hf, hv⟩ := World.exists_powerCut he (.raw "torn")
    refine ⟨f, hf, fun hintact => ?_⟩
    rcases hintact with hfile | ⟨hfile, -⟩ <;> simp [hv] at hfile

end ThinrAgent
