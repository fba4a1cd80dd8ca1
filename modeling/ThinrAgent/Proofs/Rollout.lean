import ThinrAgent.Scripts.Release
import ThinrAgent.Update.Manifest

/-!
# `ThinrAgent.Proofs.Rollout`: the staged rollout of a release

`eligible_iff` says once when a device is eligible under a staged manifest: the soak is over,
and the ramp has reached the device or there is no ramp. The two results below are read off it.
`rollout_lawful` is the law of the rollout: it is nested, starts after the soak and completes.
`frozen_rollout` is what adding `frozen_at` does: with a ramp it fixes the exposure at the
freeze, and without one it changes nothing, as eligibility then depends on the soak alone.
-/

set_option autoImplicit false

namespace ThinrAgent

/-- The minimum of two machine integers is the one of their values. -/
theorem Int64.toInt_min (a b : Int64) : (min a b).toInt = min a.toInt b.toInt := by
  show (if a ≤ b then a else b).toInt = _
  split
  · rw [min_eq_left (Int64.le_iff_toInt_le.mp ‹_›)]
  · rw [min_eq_right (le_of_not_ge fun h => ‹¬ _› (Int64.le_iff_toInt_le.mpr h))]

namespace Manifest

/-- A manifest with a version and a staging block in the documented ranges. -/
structure Staged (m : Manifest) : Prop where
  valid : m.valid = true
  hasStaging : m.hasStaging = true
  notInvalid : m.stagingInvalid = false
  soak_nonneg : 0 ≤ m.soakH
  soak_le : m.soakH ≤ 8760
  ramp_nonneg : 0 ≤ m.rampH
  ramp_le : m.rampH ≤ 8760

/-- The fraction of the ramp at the instant the exposure is computed for. -/
def exposure (m : Manifest) (now : Int64) : Rat := (m.rampRef now - m.soakEnd) / 3600 / m.rampH

/-- The instant at which the ramp is complete: the end of the soak and all hours of the ramp. -/
def rampEnd (m : Manifest) : Rat := m.soakEnd + 3600 * m.rampH

/-- The fraction of the ramp that has elapsed: the whole of it from its end on. -/
def elapsedFraction (m : Manifest) (now : Int64) : Rat :=
  if m.rampEnd ≤ now.toInt then 1 else (now.toInt - m.soakEnd) / (3600 * m.rampH)

/-- The devices to which the manifest is open at `now`, by their identifiers. -/
def eligibleAt (f : Fractions) (m : Manifest) (now : Int64) : Set String :=
  {deviceId | isEligible (evaluateEligibility f m deviceId now) = true}

section Shape
variable {m : Manifest} {f : Fractions} {deviceId : String} {now : Int64}

/-- The soak ends no earlier than the publication. -/
theorem Staged.published_le_soakEnd (h : m.Staged) : (m.publishedAt.toInt : Rat) ≤ m.soakEnd := by
  have := h.soak_nonneg
  unfold soakEnd
  linarith

/-- The ramp ends no earlier than the soak. -/
theorem Staged.soakEnd_le_rampEnd (h : m.Staged) : m.soakEnd ≤ m.rampEnd := by
  have := h.ramp_nonneg
  unfold rampEnd
  linarith

/-- When a device is eligible under a staged manifest. The check of the clock is part of the
one of the soak, which ends no earlier than the publication. -/
theorem eligible_iff (h : m.Staged) : deviceId ∈ m.eligibleAt f now ↔
    m.soakEnd ≤ now.toInt ∧ (0 < m.rampH → f.fraction deviceId m.version < m.exposure now) := by
  have hclock : m.soakEnd ≤ now.toInt → ¬ now < m.publishedAt := by
    intro hsoak hlt
    have : (now.toInt : Rat) < m.publishedAt.toInt := by
      exact_mod_cast Int64.lt_iff_toInt_lt.mp hlt
    linarith [h.published_le_soakEnd]
  simp only [eligibleAt, Set.mem_ofPred_eq, evaluateEligibility, h.valid, h.notInvalid,
    h.hasStaging, Bool.not_true, Bool.false_eq_true, if_false]
  -- The branches of the source: the soak, then the ramp, then the exposure.
  by_cases hsoak : m.soakEnd ≤ now.toInt
  · rw [if_neg (hclock hsoak), if_neg (not_lt.mpr hsoak)]
    by_cases hramp : m.rampH ≤ 0
    · simp [isEligible, hramp, hsoak, not_lt.mpr hramp]
    · rw [if_neg hramp]
      show isEligible (if f.fraction deviceId m.version < m.exposure now then _ else _) = true ↔ _
      by_cases hf : f.fraction deviceId m.version < m.exposure now
      · rw [if_pos hf]
        simp [isEligible, hsoak, hf]
      · rw [if_neg hf]
        simp [isEligible, hf, not_le.mp hramp]
  · split
    · simp [isEligible, hsoak]
    · rw [if_pos (not_le.mp hsoak)]
      simp [isEligible, hsoak]

/-- A manifest that the parser finds staged has a staging block in the documented ranges. -/
theorem staged_parse {cast : Json.FloatCast} {j : Json} (hobj : j.isObject = true)
    (hvalid : (parse cast (some j)).valid = true)
    (hstaging : (parse cast (some j)).hasStaging = true) : (parse cast (some j)).Staged := by
  rcases parse_cases cast hobj with ⟨pub, p, s, r, hb, h⟩ | ⟨-, hno, -⟩ | ⟨-, hno, -⟩
  · obtain ⟨-, hinv, -, hs, hr⟩ := h
    have ok := hb.ok
    rw [← hs, ← hr] at ok
    exact ⟨hvalid, hstaging, hinv, ok.2.1.1, ok.2.1.2, ok.2.2.1, ok.2.2.2⟩
  · rw [hno] at hstaging
    cases hstaging
  · rw [hno] at hstaging
    cases hstaging

end Shape

section Exposure
variable {m : Manifest} {now t₁ t₂ : Int64}

/-- The time that the ramp goes by does not run backwards, frozen or not. -/
theorem rampRef_mono (m : Manifest) (h : t₁ ≤ t₂) : m.rampRef t₁ ≤ m.rampRef t₂ := by
  have hle : (t₁.toInt : Rat) ≤ t₂.toInt := by exact_mod_cast Int64.le_iff_toInt_le.mp h
  unfold rampRef
  split
  · exact min_le_min_right _ hle
  · exact hle

/-- The exposure of a staged manifest only grows with time. -/
theorem exposure_mono (hramp : 0 < m.rampH) (h : t₁ ≤ t₂) : m.exposure t₁ ≤ m.exposure t₂ := by
  have := m.rampRef_mono h
  unfold exposure
  gcongr

/-- Before a freeze the exposure is the time since the soak over the length of the ramp. -/
theorem exposure_of_open (h : m.hasFrozen = false) :
    m.exposure now = (now.toInt - m.soakEnd) / (3600 * m.rampH) := by
  rw [exposure, rampRef, if_neg (by simp [h]), div_div]

/-- At the end of the soak the ramp has no exposure yet, frozen or not. -/
theorem exposure_nonpos (hramp : 0 < m.rampH) (hnow : (now.toInt : Rat) ≤ m.soakEnd) :
    m.exposure now ≤ 0 := by
  have href : m.rampRef now ≤ now.toInt := by
    unfold rampRef
    split
    · exact min_le_left _ _
    · exact le_rfl
  have : m.rampRef now - m.soakEnd ≤ 0 := by linarith
  unfold exposure
  rw [div_div]
  exact div_nonpos_of_nonpos_of_nonneg this (by positivity)

/-- In an open ramp the exposure reaches a device exactly when the elapsed fraction does. -/
theorem lt_exposure_iff {q : Rat} (h : m.hasFrozen = false) (hq : q < 1) (hramp : 0 < m.rampH) :
    q < m.exposure now ↔ q < m.elapsedFraction now := by
  rw [exposure_of_open h, elapsedFraction]
  split
  · rename_i hend
    have : (1 : Rat) ≤ (now.toInt - m.soakEnd) / (3600 * m.rampH) := by
      rw [le_div_iff₀ (by positivity)]
      unfold rampEnd at hend
      linarith
    exact ⟨fun _ => hq, fun _ => by linarith⟩
  · exact Iff.rfl

end Exposure

/-- The staged rollout of a manifest: it is nested, it starts after the soak, and without a
freeze it completes and admits exactly the devices below the elapsed fraction of the ramp. -/
theorem rollout_lawful (f : Fractions) {m : Manifest} (h : m.Staged) :
    (∀ t₁ t₂, t₁ ≤ t₂ → m.eligibleAt f t₁ ⊆ m.eligibleAt f t₂) ∧
    (∀ t deviceId, deviceId ∈ m.eligibleAt f t →
      max (m.publishedAt.toInt : Rat) m.soakEnd ≤ t.toInt) ∧
    (0 < m.rampH → ∀ t : Int64, (t.toInt : Rat) = m.soakEnd → m.eligibleAt f t = ∅) ∧
    (m.hasFrozen = false → ∀ t : Int64, m.soakEnd + 3600 * m.rampH ≤ t.toInt →
      m.eligibleAt f t = Set.univ) ∧
    (m.hasFrozen = false → ∀ t : Int64, m.soakEnd ≤ t.toInt →
      m.eligibleAt f t = {deviceId | f.fraction deviceId m.version < m.elapsedFraction t}) := by
  -- Each part reads the eligibility as: soaked, and below the exposure if there is a ramp.
  refine ⟨?_, ?_, ?_, ?_, ?_⟩
  · intro t₁ t₂ hle deviceId he
    rw [eligible_iff h] at he ⊢
    have hcast : (t₁.toInt : Rat) ≤ t₂.toInt := by exact_mod_cast Int64.le_iff_toInt_le.mp hle
    exact ⟨he.1.trans hcast, fun hramp => (he.2 hramp).trans_le (exposure_mono hramp hle)⟩
  · intro t deviceId he
    have hsoak := ((eligible_iff h).mp he).1
    exact max_le (h.published_le_soakEnd.trans hsoak) hsoak
  · intro hramp t ht
    ext deviceId
    rw [eligible_iff h]
    have hexp := exposure_nonpos hramp ht.le
    have hf := f.nonneg deviceId m.version
    simp only [Set.mem_empty_iff_false, iff_false, not_and]
    intro _ hlt
    linarith [hlt hramp]
  · intro hopen t ht
    ext deviceId
    rw [eligible_iff h]
    simp only [Set.mem_univ, iff_true]
    refine ⟨h.soakEnd_le_rampEnd.trans ht, fun hramp => ?_⟩
    rw [lt_exposure_iff hopen (f.lt_one _ _) hramp, elapsedFraction,
      if_pos (show m.rampEnd ≤ _ from ht)]
    exact f.lt_one _ _
  · intro hopen t ht
    ext deviceId
    rw [eligible_iff h, Set.mem_ofPred_eq]
    rcases h.ramp_nonneg.lt_or_eq with hramp | hramp
    · simp only [ht, hramp, true_and, forall_const]
      exact lt_exposure_iff hopen (f.lt_one _ _) hramp
    · -- Without a ramp the whole of it has elapsed when the soak ends.
      have hend : m.rampEnd ≤ t.toInt := by
        rw [rampEnd, ← hramp]
        linarith
      rw [elapsedFraction, if_pos hend]
      simp [ht, ← hramp, f.lt_one]

/-- A release of the epoch second 1000 that soaks for an hour. -/
def sampleManifest (rampH : Rat) : Manifest :=
  { version := "v1.8.0", valid := true, hasStaging := true, publishedAt := 1000, soakH := 1,
    rampH := rampH }

/-- The sample manifest is a staged one for every ramp in the range. -/
theorem staged_sampleManifest (rampH : Rat) (h : 0 ≤ rampH ∧ rampH ≤ 8760) :
    (sampleManifest rampH).Staged :=
  ⟨rfl, rfl, rfl, by norm_num [sampleManifest], by norm_num [sampleManifest], h.1, h.2⟩

/-- The fractions of a digest function that always fails. -/
def sampleFractions : Fractions := deviceFraction fun _ => []

/-- The law for a soak of one hour and a ramp of ten. -/
theorem rollout_lawful_sample :
    (∀ t₁ t₂, t₁ ≤ t₂ → (sampleManifest 10).eligibleAt sampleFractions t₁ ⊆
      (sampleManifest 10).eligibleAt sampleFractions t₂) ∧
    (sampleManifest 10).eligibleAt sampleFractions 40600 = Set.univ :=
  have h : (sampleManifest 10).Staged := staged_sampleManifest _ (by norm_num)
  ⟨(rollout_lawful sampleFractions h).1,
    (rollout_lawful sampleFractions h).2.2.2.1 rfl 40600 (by
      rw [soakEnd, show ((sampleManifest 10).publishedAt.toInt : Rat) = 1000 by decide,
        show ((40600 : Int64).toInt : Rat) = 40600 by decide]
      norm_num [sampleManifest])⟩

/-- The manifest with the ramp frozen at `T`, and all else as it was. -/
def freeze (m : Manifest) (T : Int64) : Manifest := { m with hasFrozen := true, frozenAt := T }

/-- A freeze adds one entry and leaves the others. -/
theorem find_freezeText {j : Json} {key : String} (T : Int) (hkey : key ≠ "frozen_at") :
    (freezeText T j).find key = j.find key := by
  cases j with
  | obj kvs =>
    have hbeq : (key == "frozen_at") = false := by simpa using hkey
    simp [freezeText, Json.find, List.lookup_cons, hbeq]
  | null => rfl
  | bool b => rfl
  | int z => rfl
  | float q => rfl
  | str s => rfl
  | arr xs => rfl

/-- The text of the script is read as the frozen manifest. -/
theorem parse_freezeText (cast : Json.FloatCast) {j : Json} (hobj : j.isObject = true)
    (hno : j.find "frozen_at" = none) {T : Int64} (hT : 0 < T) :
    (parse cast (some j)).hasFrozen = false ∧
      parse cast (some (freezeText T.toInt j)) = (parse cast (some j)).freeze T := by
  obtain ⟨kvs, rfl⟩ : ∃ kvs, j = .obj kvs := by
    cases j <;> first | exact ⟨_, rfl⟩ | cases hobj
  have hT' : (0 : Rat) < T.toInt := by exact_mod_cast Int64.lt_iff_toInt_lt.mp hT
  -- The parser looks every field up by its name, and only one entry is new.
  have hversion : versionIn (freezeText T.toInt (.obj kvs)) = versionIn (.obj kvs) := by
    rw [versionIn, find_freezeText _ (by decide), versionIn]
  have hchecksums : checksumsIn (freezeText T.toInt (.obj kvs)) = checksumsIn (.obj kvs) := by
    rw [checksumsIn, find_freezeText _ (by decide), checksumsIn]
  have hplain : plain (freezeText T.toInt (.obj kvs)) = plain (.obj kvs) := by
    simp only [plain, hversion, hchecksums]
  have hstaging (m : Manifest) :
      withStaging cast (freezeText T.toInt (.obj kvs)) m = withStaging cast (.obj kvs) m := by
    unfold withStaging
    rw [find_freezeText _ (by decide), find_freezeText _ (by decide),
      find_freezeText _ (by decide)]
  have hfrozen (m : Manifest) :
      withFrozen cast (freezeText T.toInt (.obj kvs)) m = m.freeze T := by
    have hfind : (freezeText T.toInt (.obj kvs)).find "frozen_at" = some (.int T.toInt) := by
      simp [freezeText, Json.find]
    simp [withFrozen, hfind, Json.number, hT', Json.toInt64, freeze]
  have hsame (m : Manifest) : withFrozen cast (.obj kvs) m = m := by
    simp [withFrozen, hno]
  rw [parse_object cast rfl, parse_object cast rfl, hplain, hstaging, hfrozen, hsame]
  refine ⟨?_, rfl⟩
  rcases withStaging_cases cast (.obj kvs) (plain (.obj kvs)) with
    ⟨pub, p, s, r, -, heq⟩ | ⟨-, heq⟩ | ⟨-, heq⟩ <;> rw [heq] <;> rfl

section Freeze
variable {f : Fractions} {m : Manifest} {now T : Int64}

/-- A frozen manifest is still a staged one. -/
theorem Staged.freeze (h : m.Staged) (T : Int64) : (m.freeze T).Staged :=
  ⟨h.valid, h.hasStaging, h.notInvalid, h.soak_nonneg, h.soak_le, h.ramp_nonneg, h.ramp_le⟩

/-- The exposure of the frozen ramp is the one of the open ramp up to the freeze. -/
theorem exposure_freeze (hopen : m.hasFrozen = false) :
    (m.freeze T).exposure now = m.exposure (min now T) := by
  rw [exposure, exposure, rampRef, rampRef, if_pos (show (m.freeze T).hasFrozen = true from rfl),
    if_neg (by simp [hopen]), Int64.toInt_min]
  push_cast
  rfl

/-- With a ramp, freezing fixes the eligible devices. -/
theorem eligibleAt_freeze (h : m.Staged) (hopen : m.hasFrozen = false) (hramp : 0 < m.rampH) :
    (m.freeze T).eligibleAt f now = m.eligibleAt f (min now T) := by
  ext deviceId
  rw [eligible_iff (h.freeze T), eligible_iff h, exposure_freeze hopen]
  show (m.soakEnd ≤ now.toInt ∧ (0 < m.rampH → f.fraction deviceId m.version < _)) ↔ _
  simp only [hramp, forall_const]
  constructor
  · rintro ⟨-, hf⟩
    -- A freeze before the end of the soak leaves no exposure.
    refine ⟨le_of_not_gt fun hlt => ?_, hf⟩
    linarith [exposure_nonpos hramp hlt.le, f.nonneg deviceId m.version]
  · rintro ⟨hsoak, hf⟩
    rw [Int64.toInt_min] at hsoak
    push_cast at hsoak
    exact ⟨hsoak.trans (min_le_left _ _), hf⟩

/-- Without a ramp, freezing changes nothing about who is eligible. -/
theorem eligibleAt_freeze_of_no_ramp (h : m.Staged) (hramp : m.rampH = 0) :
    (m.freeze T).eligibleAt f now = m.eligibleAt f now := by
  ext deviceId
  rw [eligible_iff (h.freeze T), eligible_iff h]
  have hno : ¬ 0 < m.rampH := by simp [hramp]
  have hno' : ¬ 0 < (m.freeze T).rampH := hno
  simp only [hno, hno', false_implies, and_true]
  exact Iff.rfl

end Freeze

/-- What `frozen_at` does to a rollout. With a ramp the devices that are eligible are those of
the open rollout at the freeze or before, and no further device becomes eligible after it.
Without a ramp eligibility depends on the soak alone, and the freeze has no effect. -/
theorem frozen_rollout (f : Fractions) {m : Manifest} (h : m.Staged)
    (hopen : m.hasFrozen = false) (T : Int64) :
    (0 < m.rampH → (∀ now, (m.freeze T).eligibleAt f now = m.eligibleAt f (min now T)) ∧
      ∀ now, T ≤ now → (m.freeze T).eligibleAt f now = (m.freeze T).eligibleAt f T) ∧
    (m.rampH = 0 → ∀ now, (m.freeze T).eligibleAt f now = m.eligibleAt f now) := by
  refine ⟨fun hramp => ⟨fun now => eligibleAt_freeze h hopen hramp, fun now hT => ?_⟩,
    fun hramp now => eligibleAt_freeze_of_no_ramp h hramp⟩
  have hmin : min now T = min T T := by
    rw [← Int64.toInt_inj, Int64.toInt_min, Int64.toInt_min, min_self]
    exact min_eq_right (Int64.le_iff_toInt_le.mp hT)
  rw [eligibleAt_freeze h hopen hramp, eligibleAt_freeze h hopen hramp, hmin]

/-- A release that is frozen halfway through its ramp is judged as at the freeze, for ever. -/
theorem frozen_rollout_sample :
    (sampleManifest 10 |>.freeze 22600).eligibleAt sampleFractions 90000 =
      (sampleManifest 10).eligibleAt sampleFractions (min 90000 22600) :=
  ((frozen_rollout sampleFractions (staged_sampleManifest 10 (by norm_num)) rfl
    22600).1 (by norm_num [sampleManifest])).1 90000

/-- Without a ramp, a device is eligible after the soak even when the rollout was frozen in the
soak. -/
theorem frozen_without_ramp_sample :
    (sampleManifest 0).Staged ∧ (sampleManifest 0).hasFrozen = false ∧ (0 : Int64) < 2000 ∧
      "device-aaa" ∈ (sampleManifest 0 |>.freeze 2000).eligibleAt sampleFractions 9000 ∧
      "device-aaa" ∉ (sampleManifest 0).eligibleAt sampleFractions (min 9000 2000) := by
  refine ⟨staged_sampleManifest _ (by norm_num), rfl, by decide, ?_, ?_⟩
  · show isEligible _ = true
    decide +kernel
  · show ¬ isEligible _ = true
    decide +kernel

end Manifest

end ThinrAgent
