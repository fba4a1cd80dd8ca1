import ThinrAgent.Update.UpdateSettings

/-!
# `ThinrAgent.Proofs.Settings`: what is read of the `update` section

`update_settings::from_json` never throws, and its channel is always a valid one (`read_eq`,
`validChannel_fromJson`). A number that is written in the section goes through a conversion to
`int` before it is clamped. `Survives` says which integers come out of that as the clamp of the
integer itself, and `settingsRead_iff` that these are the ones that are read right. Settings in
their range are read back from what `to_json` writes (`fromJson_toJson`).
-/

set_option autoImplicit false

namespace ThinrAgent

namespace UpdateSettings

variable {j : Json} {key : String} {dflt lo hi : Int32} {z : Int}

/-! ### No access throws -/

/-- Reading a string tests its type first, so it does not throw. -/
theorem readString_eq : readString j key = .ok (stringAt j key) := by
  unfold readString stringAt
  cases j.find key with
  | none => rfl
  | some entry => cases entry <;> rfl

/-- Reading a number tests its type first, so it does not throw. -/
theorem readInt_eq : readInt j key dflt lo hi = .ok (clampInt j key dflt lo hi) := by
  unfold readInt clampInt
  cases j.find key with
  | none => rfl
  | some entry => cases entry <;> rfl

/-- A value that is no object has no entries. -/
theorem fromJson_of_not_object (h : j.isObject = false) : fromJson j = {} := by
  have hfind (key : String) : j.find key = none := by
    cases j with
    | obj kvs => cases h
    | _ => rfl
  simp only [fromJson, stringAt, clampInt, hfind]
  rfl

/-- The reader with its accesses is the one without exceptions. -/
theorem read_eq (j : Json) : read j = .ok (fromJson j) := by
  unfold read
  cases hobj : j.isObject with
  | false => exact congrArg _ (fromJson_of_not_object hobj).symm
  | true =>
    simp only [readString_eq, readInt_eq]
    rfl

/-- A channel that is not valid is replaced by the default, which is. -/
theorem validChannel_fromJson (j : Json) : validChannel (fromJson j).channel = true := by
  show validChannel (((stringAt j "channel").filter (validChannel ·)).getD "latest") = true
  cases hchannel : (stringAt j "channel").filter (validChannel ·) with
  | none => decide
  | some channel => exact (Option.filter_eq_some_iff.mp hchannel).2

/-! ### The numbers -/

/-- The integer `z` keeps its side of the range in the conversion to `int`: it fits a 64-bit type,
and it is in the range, or above the range with a remainder that is not below the upper bound, or
below it with a remainder that is not above the lower bound. -/
def Survives (lo hi z : Int) : Prop :=
  (-2 ^ 63 ≤ z ∧ z < 2 ^ 64) ∧
    (lo ≤ z ∧ z ≤ hi ∨ hi < z ∧ hi ≤ z.bmod (2 ^ 32) ∨ z < lo ∧ z.bmod (2 ^ 32) ≤ lo)

/-- The number `v` is what is written in `j` at `key`, moved into the range, or the default. -/
structure ReadsNumber (j : Json) (key : String) (dflt lo hi v : Int32) : Prop where
  written : ∀ z, j.Writes key z → v.toInt = max lo.toInt (min z hi.toInt)
  other : (∀ z, j.find key ≠ some (.int z)) → (∀ z, ¬ j.Writes key z) → v = dflt

/-- An integer is brought to 32 bits before the clamp. -/
theorem clampInt_of_find (h : j.find key = some (.int z)) (hlo : lo ≤ hi) :
    (clampInt j key dflt lo hi).toInt = max lo.toInt (min (z.bmod (2 ^ 32)) hi.toInt) := by
  have hv : (Int32.ofInt z).toInt = z.bmod (2 ^ 32) := Int32.toInt_ofInt
  simp only [clampInt, h]
  rw [Int32.le_iff_toInt_le] at hlo
  simp only [Int32.lt_iff_toInt_lt, hv]
  split
  · omega
  · split
    · omega
    · omega

/-- A number is read right exactly when what is written survives the conversion. -/
theorem readsNumber_iff (hlo : lo < dflt) (hhi : dflt < hi)
    (hbounds : -2 ^ 31 ≤ lo.toInt ∧ hi.toInt < 2 ^ 31) :
    ReadsNumber j key dflt lo hi (clampInt j key dflt lo hi) ↔
      ∀ z, j.Writes key z → Survives lo.toInt hi.toInt z := by
  rw [Int32.lt_iff_toInt_lt] at hlo hhi
  have hrange : lo ≤ hi := Int32.le_iff_toInt_le.mpr (by omega)
  -- What is no integer in the text gives the default.
  have hdefault (h : ∀ z, j.find key ≠ some (.int z)) : clampInt j key dflt lo hi = dflt := by
    unfold clampInt
    split
    · exact absurd ‹_› (h _)
    · rfl
  constructor
  · intro hreads z hwrites
    have hclamp := hreads.written z hwrites
    rcases hwrites.cases with ⟨hfits, hfind⟩ | ⟨hlarge, q, hfind⟩
    · rw [clampInt_of_find hfind hrange] at hclamp
      refine ⟨hfits, ?_⟩
      omega
    · -- A `double` gives the default, which is no bound of the range.
      rw [hdefault (by simp [hfind])] at hclamp
      omega
  · intro hsurvives
    refine ⟨fun z hwrites => ?_, fun h _ => hdefault h⟩
    obtain ⟨hfits, hside⟩ := hsurvives z hwrites
    rcases hwrites.cases with ⟨-, hfind⟩ | ⟨hlarge, -⟩
    · rw [clampInt_of_find hfind hrange]
      -- An integer in the range fits into 32 bits, so the conversion keeps it.
      have hbmod (h : lo.toInt ≤ z ∧ z ≤ hi.toInt) : z.bmod (2 ^ 32) = z := by
        obtain ⟨hlow, hhigh⟩ := hbounds
        rw [Int.bmod_eq_of_le] <;> omega
      rcases hside with hin | habove | hbelow
      · rw [hbmod hin]
      · omega
      · omega
    · exact absurd hfits hlarge

/-! ### The round trip -/

/-- The settings have a valid channel, and their numbers are in the range. -/
structure InRange (s : UpdateSettings) : Prop where
  channel : validChannel s.channel = true
  checkIntervalH : CHECK_INTERVAL_MIN_H ≤ s.checkIntervalH ∧
    s.checkIntervalH ≤ CHECK_INTERVAL_MAX_H
  rollbackDeadlineS : ROLLBACK_DEADLINE_MIN_S ≤ s.rollbackDeadlineS ∧
    s.rollbackDeadlineS ≤ ROLLBACK_DEADLINE_MAX_S

/-- A policy is read back from its text. -/
theorem ofString_policy (policy : UpdatePolicy) :
    UpdatePolicy.ofString policy.toString = some policy :=
  UpdatePolicy.ofString_eq_some.mpr rfl

/-- A source is read back from its text. -/
theorem ofString_source (source : PolicySource) :
    PolicySource.ofString source.toString = source := by
  cases source <;> decide

/-- A number in the range is read back. -/
theorem clampInt_toInt {v : Int32} (h : j.find key = some (.int v.toInt)) (hv : lo ≤ v ∧ v ≤ hi) :
    clampInt j key dflt lo hi = v := by
  obtain ⟨hlo, hhi⟩ := hv
  have hnot (a b : Int32) (hab : a ≤ b) : ¬ b < a := by
    rw [Int32.le_iff_toInt_le] at hab
    rw [Int32.lt_iff_toInt_lt]
    omega
  simp only [clampInt, h, Int32.ofInt_toInt]
  rw [if_neg (hnot lo v hlo), if_neg (hnot v hi hhi)]

/-- The settings that are read in their range come back from the text they write. -/
theorem fromJson_toJson {s : UpdateSettings} (h : s.InRange) : fromJson s.toJson = s := by
  have hpolicy : stringAt s.toJson "policy" = some s.policy.toString := rfl
  have hsource : stringAt s.toJson "policy_source" = some s.source.toString := rfl
  have hchannel : stringAt s.toJson "channel" = some s.channel := rfl
  have hinterval : s.toJson.find "check_interval_h" = some (.int s.checkIntervalH.toInt) := rfl
  have hdeadline : s.toJson.find "rollback_deadline_s" =
    some (.int s.rollbackDeadlineS.toInt) := rfl
  simp only [fromJson, hpolicy, hsource, hchannel, clampInt_toInt hinterval h.checkIntervalH,
    clampInt_toInt hdeadline h.rollbackDeadlineS, Option.bind_some, Option.map_some,
    Option.getD_some, ofString_policy, ofString_source]
  rw [Option.filter_some_pos h.channel]
  rfl

/-! ### What is read -/

/-- The section is read without an exception, the channel is valid, and both numbers are the ones
that are written, moved into their range. -/
def SettingsRead (j : Json) : Prop :=
  ∃ s, read j = .ok s ∧ validChannel s.channel = true ∧
    ReadsNumber j "check_interval_h" CHECK_INTERVAL_DEFAULT_H CHECK_INTERVAL_MIN_H
      CHECK_INTERVAL_MAX_H s.checkIntervalH ∧
    ReadsNumber j "rollback_deadline_s" ROLLBACK_DEADLINE_DEFAULT_S ROLLBACK_DEADLINE_MIN_S
      ROLLBACK_DEADLINE_MAX_S s.rollbackDeadlineS

/-- For every JSON value: the section is read right exactly when the numbers written in it survive
the conversion to `int`. All settings in their range are read back from what they write. -/
theorem settingsRead_iff (j : Json) :
    (SettingsRead j ↔ (∀ z, j.Writes "check_interval_h" z → Survives 1 168 z) ∧
        ∀ z, j.Writes "rollback_deadline_s" z → Survives 30 600 z) ∧
      ∀ s : UpdateSettings, s.InRange → fromJson s.toJson = s := by
  refine ⟨?_, fun s h => fromJson_toJson h⟩
  have hinterval : ReadsNumber j "check_interval_h" CHECK_INTERVAL_DEFAULT_H CHECK_INTERVAL_MIN_H
      CHECK_INTERVAL_MAX_H (fromJson j).checkIntervalH ↔
        ∀ z, j.Writes "check_interval_h" z → Survives 1 168 z :=
    readsNumber_iff (by decide) (by decide) (by decide)
  have hdeadline : ReadsNumber j "rollback_deadline_s" ROLLBACK_DEADLINE_DEFAULT_S
      ROLLBACK_DEADLINE_MIN_S ROLLBACK_DEADLINE_MAX_S (fromJson j).rollbackDeadlineS ↔
        ∀ z, j.Writes "rollback_deadline_s" z → Survives 30 600 z :=
    readsNumber_iff (by decide) (by decide) (by decide)
  constructor
  · rintro ⟨s, hs, -, h⟩
    rw [read_eq] at hs
    obtain rfl := Except.ok.inj hs
    exact ⟨hinterval.mp h.1, hdeadline.mp h.2⟩
  · intro h
    exact ⟨fromJson j, read_eq j, validChannel_fromJson j, hinterval.mpr h.1, hdeadline.mpr h.2⟩

/-- The deadline 2 ^ 32 is read as 30 seconds, not as 600. -/
theorem not_settingsRead_sample :
    ¬ SettingsRead (.obj [("rollback_deadline_s", .int 4294967296)]) := by
  rintro ⟨s, hs, -, -, h⟩
  rw [read_eq] at hs
  obtain rfl := Except.ok.inj hs
  have hclamp := h.written 4294967296 ⟨.int 4294967296, rfl, rfl⟩
  revert hclamp
  decide

end UpdateSettings

end ThinrAgent
