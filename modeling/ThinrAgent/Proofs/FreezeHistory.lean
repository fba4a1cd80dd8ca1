import ThinrAgent.Proofs.Channel
import ThinrAgent.Proofs.Rollout

/-!
# `ThinrAgent.Proofs.FreezeHistory`: a release that is frozen and unfrozen

Runs of `freeze.sh`, one after the other, on the manifest of one release. A run may fail or be
stopped anywhere, and an upload that is reported as failed may have been stored. `Dated` says what
the manifest is at any time: the one that was published, but for `frozen_at`, which is the time of
one of the freezes. `freezeScript_dated` is the step and `FreezeLife.dated` the history.

`offered_stays` is about the devices. What has been offered to a device is not withdrawn, no freeze
offers the release to a device before the open ramp would, and while nobody unfreezes a frozen
release with a ramp, the devices that it is offered to are the same.
-/

set_option autoImplicit false

namespace ThinrAgent

open Effects Shell

variable {β : Type}

/-- A run of the script with one of its two actions. It is complete or not, as far as its answers
go. -/
structure FreezeRun where
  freeze : Bool
  choices : List BucketChoice

/-- The bucket after the whole run of `freeze.sh`, with the answers of the run. -/
def FreezeRun.runIn (tools : CdnTools β) (jq : Jq) (r : FreezeRun) (cdn : CdnFiles β) :
    CdnFiles β :=
  (bucketMachine.after r.choices (freezeScript tools jq r.freeze, cdn)).2

/-- Allowed runs, one after the other, from the time `start` to the time `t`. The clock of the
publisher shows a time of the run. -/
inductive FreezeLife (tools : CdnTools β) (jq : Jq) (allowed : FreezeRun → Prop) (start : Nat)
    (cdn : CdnFiles β) : Nat → CdnFiles β → Prop
  | start : FreezeLife tools jq allowed start cdn start cdn
  | wait {t t' : Nat} {cdn' : CdnFiles β} (h : FreezeLife tools jq allowed start cdn t cdn')
      (ht : t ≤ t') : FreezeLife tools jq allowed start cdn t' cdn'
  | run {t t' : Nat} {cdn' : CdnFiles β} (h : FreezeLife tools jq allowed start cdn t cdn')
      (r : FreezeRun) (hr : allowed r) (ht : t ≤ t')
      (hnow : ∀ c ∈ r.choices, t ≤ c.now ∧ c.now ≤ t') :
      FreezeLife tools jq allowed start cdn t' (r.runIn tools jq cdn')

/-- The text is the published one, but for `frozen_at`: there is none, or it is a time that
satisfies `ok`. -/
structure DatedText (published : Json) (ok : Nat → Prop) (j : Json) : Prop where
  isObject : j.isObject = true
  keys : ∀ key, key ≠ "frozen_at" → j.find key = published.find key
  frozen : j.find "frozen_at" = none ∨ ∃ T, ok T ∧ j.find "frozen_at" = some (.int (T : Nat))

/-- The manifest in the bucket is the published one, frozen at an allowed moment or not at all. -/
def Dated (published : Json) (ok : Nat → Prop) (cdn : CdnFiles β) : Prop :=
  ∃ j, cdn "latest.json" = some (.json j) ∧ DatedText published ok j

/-- A dated text stays one when more moments of a freeze are allowed. -/
theorem DatedText.mono {published j : Json} {ok ok' : Nat → Prop} (h : DatedText published ok j)
    (hok : ∀ T, ok T → ok' T) : DatedText published ok' j where
  isObject := h.isObject
  keys := h.keys
  frozen := h.frozen.imp_right fun ⟨T, hT, hfind⟩ => ⟨T, hok T hT, hfind⟩

/-- The times of the freezes can be more. -/
theorem Dated.mono {published : Json} {ok ok' : Nat → Prop} {cdn : CdnFiles β}
    (h : Dated published ok cdn) (hok : ∀ T, ok T → ok' T) : Dated published ok' cdn := by
  obtain ⟨j, hj, hdated⟩ := h
  exact ⟨j, hj, hdated.mono hok⟩

/-! ### One run -/

section Script

variable {tools : CdnTools β} {jq : Jq} {published : Json} {ok : Nat → Prop} {cdn : CdnFiles β}
  {A : (bucket β).Op → BucketChoice → Prop}

/-- An upload of the manifest, which may be stored or not. -/
theorem cwp_uploadLatest {J : CdnFiles β → Prop} {content : Content β} (h : J cdn)
    (hstored : J (cdn.bind "latest.json" content)) :
    cwp bucketMachine A J (uploadFile "latest.json" content) (fun _ _ => True) cdn := by
  refine ⟨h, fun c _ => ?_⟩
  have hnext : J (if c.stored = true then cdn.bind "latest.json" content else cdn) := by
    split
    · exact hstored
    · exact h
  cases hdone : c.stored && c.reported with
  | true =>
    have hres :
        (bucketMachine.exec cdn (BucketOp.upload "latest.json" content) c).1 = true := hdone
    rw [hres]
    exact ⟨hnext, trivial⟩
  | false =>
    have hres :
        (bucketMachine.exec cdn (BucketOp.upload "latest.json" content) c).1 = false := hdone
    rw [hres]
    exact ⟨hnext, trivial⟩

/-- The rule for a read of the bucket, which changes nothing and may fail or find the object that is
there. -/
theorem cwp_fetch {α : Type} {J : CdnFiles β → Prop} {key : String}
    {k : Option (Content β) → BucketM β α} {Q : Except Unit α → CdnFiles β → Prop} (h : J cdn)
    (hk : ∀ found, found = none ∨ found = cdn key → cwp bucketMachine A J (k found) Q cdn) :
    cwp bucketMachine A J (askBucket (.fetch key) >>= k) Q cdn := by
  refine ⟨h, fun c _ => hk _ ?_⟩
  cases hreported : c.reported with
  | true =>
    refine .inr ?_
    show (if c.reported = true then cdn key else none) = cdn key
    rw [if_pos hreported]
  | false =>
    refine .inl ?_
    show (if c.reported = true then cdn key else none) = none
    rw [hreported]
    rfl

/-- What a run reads of the manifest is its one value, where the fetch has found anything. -/
theorem docs_of_latest {j : Json} {found : Option (Content β)} {docs : List Json}
    (hj : cdn "latest.json" = some (.json j)) (hfound : found = none ∨ found = cdn "latest.json")
    (hdocs : found.bind tools.inputs = some docs) : docs = [j] := by
  rcases hfound with rfl | rfl
  · cases hdocs
  · rw [hj, Option.bind_some, tools.inputs_json] at hdocs
    exact (Option.some.inj hdocs).symm

/-- A manifest with a freeze is an object. -/
theorem isObject_freezeText {j : Json} {T : Int} (h : j.isObject = true) :
    (freezeText T j).isObject = true := by
  cases j with
  | obj kvs => rfl
  | _ => cases h

/-- The freeze has the time that was entered. -/
theorem find_freezeText_self {j : Json} {T : Int} (h : j.isObject = true) :
    (freezeText T j).find "frozen_at" = some (.int T) := by
  cases j with
  | obj kvs => rfl
  | _ => cases h

/-- A manifest without its freeze is an object. -/
theorem isObject_unfreezeText {j : Json} (h : j.isObject = true) :
    (unfreezeText j).isObject = true := by
  cases j with
  | obj kvs => rfl
  | _ => cases h

/-- After the removal the text has no field `frozen_at`. -/
theorem find_unfreezeText_self (j : Json) : (unfreezeText j).find "frozen_at" = none := by
  cases j with
  | obj kvs =>
    show (kvs.filter _).lookup "frozen_at" = none
    rw [List.lookup_eq_none_iff]
    intro entry hentry
    have hne : entry.1 ≠ "frozen_at" := by simpa using (List.mem_filter.mp hentry).2
    exact bne_iff_ne.mpr hne.symm
  | _ => rfl

/-- A run keeps the published manifest, but for `frozen_at`, which may become a time of the run. -/
theorem freezeScript_dated {start t : Nat} (h : Dated published ok cdn) (ht : t ≤ 2 ^ 53)
    (freeze : Bool) :
    cwp bucketMachine (fun _ c => start ≤ c.now ∧ c.now ≤ t)
      (Dated published fun T => ok T ∨ (start ≤ T ∧ T ≤ t)) (freezeScript tools jq freeze)
      (fun _ _ => True) cdn := by
  have hsame : Dated published (fun T => ok T ∨ (start ≤ T ∧ T ≤ t)) cdn :=
    h.mono fun T hT => .inl hT
  -- The run reads the manifest and writes it once at most.
  obtain ⟨j, hj, hobj, hkeys, -⟩ := h
  unfold freezeScript
  refine cwp_fetch hsame fun found hfound => ?_
  split
  · next docs hdocs =>
    obtain rfl := docs_of_latest hj hfound hdocs
    unfold freezeDocs
    split
    · split
      · split
        · exact ⟨hsame, trivial⟩
        · -- The manifest becomes a frozen one, at the time of `date`.
          refine ⟨hsame, fun c hc => cwp_uploadLatest hsame ?_⟩
          have hprint : jq.print (c.now : Int) = c.now := jq.exact _ (by omega) (by omega)
          refine ⟨freezeText (jq.print (c.now : Int)) j, Registry.bind_self _ _ _,
            isObject_freezeText hobj, fun key hkey => ?_, .inr ⟨c.now, .inr hc, ?_⟩⟩
          · rw [Manifest.find_freezeText _ hkey]
            exact hkeys key hkey
          · rw [find_freezeText_self hobj, hprint]
      · split
        · -- Without `frozen_at` the text has the entries of the published one.
          refine cwp_uploadLatest hsame ⟨unfreezeText j, Registry.bind_self _ _ _,
            isObject_unfreezeText hobj, fun key hkey => ?_, .inl (find_unfreezeText_self j)⟩
          rw [find_unfreezeText hkey]
          exact hkeys key hkey
        · exact ⟨hsame, trivial⟩
    · exact ⟨hsame, trivial⟩
  · exact ⟨hsame, trivial⟩

/-- A second freeze changes nothing: the first one keeps its moment. -/
theorem freezeScript_frozen {j : Json} (hj : cdn "latest.json" = some (.json j)) {T : Json}
    (hfrozen : j.find "frozen_at" = some T) :
    cwp bucketMachine A (fun v => v = cdn) (freezeScript tools jq true) (fun _ _ => True) cdn := by
  -- The test of the script finds the entry, whatever it is.
  have hhas : hasFrozen j = some "true" := by
    cases j with
    | obj kvs =>
      have hlookup : kvs.lookup "frozen_at" = some T := hfrozen
      rw [hasFrozen, hlookup]
      rfl
    | _ => cases hfrozen
  unfold freezeScript
  refine cwp_fetch rfl fun found hfound => ?_
  split
  · next docs hdocs =>
    obtain rfl := docs_of_latest hj hfound hdocs
    unfold freezeDocs
    split
    · next has _ hmap _ =>
      have htrue : has = ["true"] := by
        rw [List.mapM_cons, hhas] at hmap
        exact (Option.some.inj hmap).symm
      rw [if_pos rfl, htrue, if_pos (by decide)]
      exact ⟨rfl, trivial⟩
    · exact ⟨rfl, trivial⟩
  · exact ⟨rfl, trivial⟩

end Script

/-! ### Histories -/

section History

variable {tools : CdnTools β} {jq : Jq} {allowed : FreezeRun → Prop} {published : Json}
  {ok : Nat → Prop} {start t : Nat} {cdn cdn' : CdnFiles β}

/-- A history ends no earlier than it starts. -/
theorem FreezeLife.start_le (h : FreezeLife tools jq allowed start cdn t cdn') : start ≤ t := by
  induction h with
  | start => exact Nat.le_refl _
  | wait _ ht ih => exact ih.trans ht
  | run _ _ _ ht _ ih => exact ih.trans ht

/-- After any runs the manifest is the published one, but for the time of a freeze. -/
theorem FreezeLife.dated (h : FreezeLife tools jq allowed start cdn t cdn')
    (hd : Dated published ok cdn) (ht : t ≤ 2 ^ 53) :
    Dated published (fun T => ok T ∨ (start ≤ T ∧ T ≤ t)) cdn' := by
  induction h with
  | start => exact hd.mono fun T hT => .inl hT
  | wait _ hle ih =>
    refine (ih (hle.trans ht)).mono fun T hT => ?_
    rcases hT with hT | hT
    · exact .inl hT
    · exact .inr ⟨hT.1, hT.2.trans hle⟩
  | @run t₁ t₂ cdn₁ hlife r _ hle hnow ih =>
    have hstart := hlife.start_le
    have hrun : Dated published
        (fun T => (ok T ∨ (start ≤ T ∧ T ≤ t₁)) ∨ (t₁ ≤ T ∧ T ≤ t₂)) (r.runIn tools jq cdn₁) :=
      cwp_after_inv (freezeScript_dated (ih (hle.trans ht)) ht r.freeze)
        (admits_of_forall _ (fun c hc _ => hnow c hc) _)
    refine hrun.mono fun T hT => ?_
    rcases hT with (hT | hT) | hT
    · exact .inl hT
    · exact .inr ⟨hT.1, hT.2.trans hle⟩
    · exact .inr ⟨hstart.trans hT.1, hT.2⟩

/-- While nobody unfreezes it, a frozen manifest stays as it is. -/
theorem FreezeLife.frozen (h : FreezeLife tools jq (fun r => r.freeze = true) start cdn t cdn')
    {j : Json} (hj : cdn "latest.json" = some (.json j)) {T : Json}
    (hfrozen : j.find "frozen_at" = some T) : cdn' "latest.json" = some (.json j) := by
  induction h with
  | start => exact hj
  | wait _ _ ih => exact ih
  | @run t₁ t₂ cdn₁ _ r hr _ _ ih =>
    have hrun : (bucketMachine.after r.choices (freezeScript tools jq true, cdn₁)).2 = cdn₁ :=
      cwp_after_inv (freezeScript_frozen ih hfrozen) (admits_anyAnswer _ r.choices _)
    rw [FreezeRun.runIn, hr, hrun]
    exact ih

end History

/-! ### Devices -/

section Devices

variable {published : Json} {cast : Json.FloatCast} {f : Fractions} {m : Manifest} {T : Nat}

/-- A manifest is read by its entries, so two objects with the same entries give the same
manifest. -/
theorem Manifest.parse_of_find {j j' : Json} (hobj : j.isObject = true) (hobj' : j'.isObject = true)
    (h : ∀ key, j.find key = j'.find key) :
    Manifest.parse cast (some j) = Manifest.parse cast (some j') := by
  have hversion : Manifest.versionIn j = Manifest.versionIn j' := by
    rw [Manifest.versionIn, h, Manifest.versionIn]
  have hchecksums : Manifest.checksumsIn j = Manifest.checksumsIn j' := by
    rw [Manifest.checksumsIn, h, Manifest.checksumsIn]
  have hplain : Manifest.plain j = Manifest.plain j' := by
    simp only [Manifest.plain, hversion, hchecksums]
  have hstaging (m : Manifest) :
      Manifest.withStaging cast j m = Manifest.withStaging cast j' m := by
    unfold Manifest.withStaging
    rw [h, h, h]
  have hfrozen (m : Manifest) : Manifest.withFrozen cast j m = Manifest.withFrozen cast j' m := by
    unfold Manifest.withFrozen
    rw [h]
  rw [Manifest.parse_object cast hobj, Manifest.parse_object cast hobj', hplain, hstaging,
    hfrozen]

/-- What a device reads of a dated manifest: the published release, or the one that is frozen at
the time. -/
theorem DatedText.parse (cast : Json.FloatCast) {ok : Nat → Prop} {j : Json}
    (h : DatedText published ok j) (hobj : published.isObject = true)
    (hopen : published.find "frozen_at" = none)
    (hok : ∀ T, ok T → 0 < T ∧ T < 2 ^ 63) :
    (j.find "frozen_at" = none ∧
        Manifest.parse cast (some j) = Manifest.parse cast (some published)) ∨
      ∃ T, ok T ∧ j.find "frozen_at" = some (.int (T : Nat)) ∧
        Manifest.parse cast (some j) =
          (Manifest.parse cast (some published)).freeze (Int64.ofNat T) := by
  -- The parser looks entries up, so equal entries are enough.
  rcases h.frozen with hnone | ⟨T, hT, hfind⟩
  · refine .inl ⟨hnone, Manifest.parse_of_find h.isObject hobj fun key => ?_⟩
    by_cases hkey : key = "frozen_at"
    · rw [hkey, hnone, hopen]
    · exact h.keys key hkey
  · obtain ⟨hpos, hlt⟩ := hok T hT
    have hint : (Int64.ofNat T).toInt = T := Int64.toInt_ofNat_of_lt hlt
    have hpos' : (0 : Int64) < Int64.ofNat T := by
      rw [Int64.lt_iff_toInt_lt, hint, Int64.toInt_zero]
      exact_mod_cast hpos
    refine .inr ⟨T, hT, hfind, ?_⟩
    rw [← (Manifest.parse_freezeText cast hobj hopen hpos').2]
    refine Manifest.parse_of_find h.isObject (isObject_freezeText hobj) fun key => ?_
    by_cases hkey : key = "frozen_at"
    · rw [hkey, hfind, find_freezeText_self hobj, hint]
    · rw [Manifest.find_freezeText _ hkey]
      exact h.keys key hkey

namespace Manifest

/-- The devices that a release is offered to only become more. -/
theorem eligibleAt_mono (h : m.Staged) {t₁ t₂ : Nat} (hle : t₁ ≤ t₂) (hmax : t₂ < 2 ^ 63) :
    m.eligibleAt f (Int64.ofNat t₁) ⊆ m.eligibleAt f (Int64.ofNat t₂) := by
  have hint₁ : (Int64.ofNat t₁).toInt = t₁ := Int64.toInt_ofNat_of_lt (by omega)
  have hint₂ : (Int64.ofNat t₂).toInt = t₂ := Int64.toInt_ofNat_of_lt hmax
  have hle' : Int64.ofNat t₁ ≤ Int64.ofNat t₂ := by
    rw [Int64.le_iff_toInt_le, hint₁, hint₂]
    exact_mod_cast hle
  intro deviceId he
  rw [eligible_iff h] at he ⊢
  have hcast : ((Int64.ofNat t₁).toInt : Rat) ≤ (Int64.ofNat t₂).toInt := by
    exact_mod_cast Int64.le_iff_toInt_le.mp hle'
  exact ⟨he.1.trans hcast, fun hramp => (he.2 hramp).trans_le (exposure_mono hramp hle')⟩

/-- The time that counts at `t` for a release that is frozen at `T`. -/
def countedTime (m : Manifest) (T t : Nat) : Nat := if 0 < m.rampH then min t T else t

/-- The time that counts is never ahead of the clock. -/
theorem countedTime_le (m : Manifest) (T t : Nat) : m.countedTime T t ≤ t := by
  unfold countedTime
  split <;> omega

/-- A freeze that is not before `t₁` counts for no less at `t₂`. -/
theorem le_countedTime (m : Manifest) {T t₁ t₂ : Nat} (hT : t₁ ≤ T) (ht : t₁ ≤ t₂) :
    t₁ ≤ m.countedTime T t₂ := by
  unfold countedTime
  split <;> omega

/-- The time that counts does not run backwards. -/
theorem countedTime_mono (m : Manifest) {T t₁ t₂ : Nat} (ht : t₁ ≤ t₂) :
    m.countedTime T t₁ ≤ m.countedTime T t₂ := by
  unfold countedTime
  split <;> omega

/-- A device judges a frozen release as it judged the open one at the time that counts. -/
theorem eligibleAt_frozen (h : m.Staged) (hopen : m.hasFrozen = false) {t : Nat} (hT : T < 2 ^ 63)
    (ht : t < 2 ^ 63) : (m.freeze (Int64.ofNat T)).eligibleAt f (Int64.ofNat t) =
      m.eligibleAt f (Int64.ofNat (m.countedTime T t)) := by
  unfold countedTime
  split
  · next hramp =>
    rw [eligibleAt_freeze h hopen hramp]
    congr 1
    rw [← Int64.toInt_inj, Int64.toInt_min, Int64.toInt_ofNat_of_lt ht,
      Int64.toInt_ofNat_of_lt hT, Int64.toInt_ofNat_of_lt (by omega)]
    omega
  · next hramp =>
    have hzero : m.rampH = 0 := le_antisymm (not_lt.mp hramp) h.ramp_nonneg
    exact eligibleAt_freeze_of_no_ramp h hzero

end Manifest

/-- The devices that are eligible by a dated manifest are those of the open release at the time
that counts. -/
theorem DatedText.eligibleAt (cast : Json.FloatCast) (f : Fractions) {ok : Nat → Prop} {j : Json}
    (h : DatedText published ok j) (hobj : published.isObject = true)
    (hopen : published.find "frozen_at" = none)
    (hstaged : (Manifest.parse cast (some published)).Staged)
    (hok : ∀ T, ok T → 0 < T ∧ T < 2 ^ 63) {t : Nat} (ht : t < 2 ^ 63) :
    ∃ r, (Manifest.parse cast (some j)).eligibleAt f (Int64.ofNat t) =
        (Manifest.parse cast (some published)).eligibleAt f (Int64.ofNat r) ∧
      ((j.find "frozen_at" = none ∧ r = t) ∨ ∃ T, ok T ∧
        j.find "frozen_at" = some (.int (T : Nat)) ∧
        r = (Manifest.parse cast (some published)).countedTime T t) := by
  have hnever : (Manifest.parse cast (some published)).hasFrozen = false :=
    (Manifest.parse_freezeText cast hobj hopen (T := 1) (by decide)).1
  rcases h.parse cast hobj hopen hok with ⟨hnone, heq⟩ | ⟨T, hT, hfind, heq⟩
  · exact ⟨t, by rw [heq], .inl ⟨hnone, rfl⟩⟩
  · refine ⟨_, ?_, .inr ⟨T, hT, hfind, rfl⟩⟩
    rw [heq]
    exact Manifest.eligibleAt_frozen hstaged hnever (hok T hT).2 ht

/-- Runs of `freeze.sh` on the manifest of a staged release, one after the other, each complete,
failed or stopped, and the clock of the devices is that of the publisher. A device that is eligible
stays so. A freeze makes no device eligible that the open release would not. While a release with a
ramp is frozen and nobody unfreezes it, the eligible devices are the same. -/
theorem offered_stays (tools : CdnTools β) (jq : Jq) (cast : Json.FloatCast) (f : Fractions)
    {published : Json} (hobj : published.isObject = true)
    (hopen : published.find "frozen_at" = none)
    (hstaged : (Manifest.parse cast (some published)).Staged) {t₀ t₁ t₂ : Nat}
    {cdn₀ cdn₁ cdn₂ : CdnFiles β} (hcdn : cdn₀ "latest.json" = some (.json published))
    (h₁ : FreezeLife tools jq (fun _ => True) t₀ cdn₀ t₁ cdn₁)
    (h₂ : FreezeLife tools jq (fun _ => True) t₁ cdn₁ t₂ cdn₂) (hpos : 0 < t₀)
    (hmax : t₂ ≤ 2 ^ 53) :
    ∃ j₁ j₂, cdn₁ "latest.json" = some (.json j₁) ∧ cdn₂ "latest.json" = some (.json j₂) ∧
      (Manifest.parse cast (some j₁)).eligibleAt f (Int64.ofNat t₁) ⊆
        (Manifest.parse cast (some j₂)).eligibleAt f (Int64.ofNat t₂) ∧
      (Manifest.parse cast (some j₂)).eligibleAt f (Int64.ofNat t₂) ⊆
        (Manifest.parse cast (some published)).eligibleAt f (Int64.ofNat t₂) ∧
      (0 < (Manifest.parse cast (some published)).rampH →
        (Manifest.parse cast (some j₁)).hasFrozen = true →
        FreezeLife tools jq (fun r => r.freeze = true) t₁ cdn₁ t₂ cdn₂ →
        (Manifest.parse cast (some j₂)).eligibleAt f (Int64.ofNat t₂) =
          (Manifest.parse cast (some j₁)).eligibleAt f (Int64.ofNat t₁)) := by
  have hle₁ := h₁.start_le
  have hle₂ := h₂.start_le
  have hmany : t₂ < 2 ^ 63 := by omega
  have hstart : Dated published (fun _ => False) cdn₀ :=
    ⟨published, hcdn, hobj, fun _ _ => rfl, .inl hopen⟩
  obtain ⟨j₁, hj₁, hdated₁⟩ := h₁.dated hstart (hle₂.trans hmax)
  have hfirst (T : Nat) (hT : j₁.find "frozen_at" = some (.int (T : Nat))) :
      0 < T ∧ T ≤ t₁ := by
    rcases hdated₁.frozen with hnone | ⟨T', hT', hfind⟩
    · rw [hnone] at hT
      cases hT
    · rw [hfind] at hT
      have heq : T' = T := by simpa using hT
      have := hT'.resolve_left id
      omega
  -- What is frozen at `t₁` stays so until it is unfrozen. What is frozen later has a later time.
  have hnow : DatedText published (fun T => j₁.find "frozen_at" = some (.int (T : Nat))) j₁ :=
    ⟨hdated₁.isObject, hdated₁.keys, hdated₁.frozen.imp_right
      fun ⟨T, _, hfind⟩ => ⟨T, hfind, hfind⟩⟩
  obtain ⟨j₂, hj₂, hdated₂⟩ := h₂.dated ⟨j₁, hj₁, hnow⟩ hmax
  have hbound₁ (T : Nat) (hT : j₁.find "frozen_at" = some (.int (T : Nat))) :
      0 < T ∧ T < 2 ^ 63 := by
    have := hfirst T hT
    omega
  have hbound₂ (T : Nat)
      (hT : j₁.find "frozen_at" = some (.int (T : Nat)) ∨ (t₁ ≤ T ∧ T ≤ t₂)) :
      0 < T ∧ T < 2 ^ 63 := by
    rcases hT with hT | hT
    · exact hbound₁ T hT
    · omega
  obtain ⟨r₁, he₁, hr₁⟩ := hnow.eligibleAt cast f hobj hopen hstaged hbound₁
    (hle₂.trans_lt hmany)
  obtain ⟨r₂, he₂, hr₂⟩ := hdated₂.eligibleAt cast f hobj hopen hstaged hbound₂ hmany
  have hread₁ := hnow.parse cast hobj hopen hbound₁
  have hnever : (Manifest.parse cast (some published)).hasFrozen = false :=
    (Manifest.parse_freezeText cast hobj hopen (T := 1) (by decide)).1
  generalize Manifest.parse cast (some published) = m at *
  have hr₂_le : r₂ ≤ t₂ := by
    rcases hr₂ with ⟨-, rfl⟩ | ⟨T, -, -, rfl⟩
    · exact le_refl _
    · exact m.countedTime_le T t₂
  have hr_le : r₁ ≤ r₂ := by
    -- Four cases: open or frozen, before and after.
    rcases hr₁ with ⟨hnone₁, rfl⟩ | ⟨T₁, hfind₁, -, rfl⟩
    · rcases hr₂ with ⟨-, rfl⟩ | ⟨T₂, hT₂, -, rfl⟩
      · exact hle₂
      · have hlater := hT₂.resolve_left (by rw [hnone₁]; exact fun h => by cases h)
        exact m.le_countedTime hlater.1 hle₂
    · rcases hr₂ with ⟨-, rfl⟩ | ⟨T₂, hT₂ | hT₂, -, rfl⟩
      · exact (m.countedTime_le T₁ t₁).trans hle₂
      · rw [hfind₁] at hT₂
        have heq : T₁ = T₂ := by simpa using hT₂
        rw [heq]
        exact m.countedTime_mono hle₂
      · exact (m.countedTime_le T₁ t₁).trans (m.le_countedTime hT₂.1 hle₂)
  refine ⟨j₁, j₂, hj₁, hj₂, ?_, ?_, fun hramp hfrozen hlife => ?_⟩
  · rw [he₁, he₂]
    exact Manifest.eligibleAt_mono hstaged hr_le (hr₂_le.trans_lt hmany)
  · rw [he₂]
    exact Manifest.eligibleAt_mono hstaged hr₂_le hmany
  · rcases hread₁ with ⟨-, heq₁⟩ | ⟨T, hT, -, heq⟩
    · -- The open release is not frozen.
      rw [heq₁, hnever] at hfrozen
      cases hfrozen
    · -- The same text is read, at a time after the freeze.
      have hafter := hfirst T hT
      have hsame := hlife.frozen hj₁ hT
      rw [hj₂] at hsame
      obtain rfl : j₂ = j₁ := by simpa using hsame
      rw [heq, Manifest.eligibleAt_frozen hstaged hnever (by omega) hmany,
        Manifest.eligibleAt_frozen hstaged hnever (by omega) (by omega)]
      have hcount : m.countedTime T t₂ = m.countedTime T t₁ := by
        unfold Manifest.countedTime
        rw [if_pos hramp, if_pos hramp]
        omega
      rw [hcount]

end Devices

/-! ### A sample -/

/-- A release with a soak of one hour and a ramp of ten. -/
def sampleRelease : Json :=
  .obj [("version", .str "2"), ("published_at", .int 1000), ("soak_h", .int 1),
    ("ramp_h", .int 10)]

/-- The server with the release and nothing else. -/
def releaseBucket : CdnFiles Nat := fun key =>
  if key = "latest.json" then some (.json sampleRelease) else none

/-- A run at the time `now` without a failure. -/
def sampleFreezeRun (freeze : Bool) (now : Nat) : FreezeRun :=
  ⟨freeze, List.replicate 3 { now := now }⟩

/-- The release is frozen in the ramp and unfrozen later. -/
theorem offered_stays_sample :
    ∃ j₁ j₂, ((sampleFreezeRun true 20000).runIn sampleTools sampleJq releaseBucket) "latest.json" =
        some (.json j₁) ∧
      ((sampleFreezeRun false 30000).runIn sampleTools sampleJq
        ((sampleFreezeRun true 20000).runIn sampleTools sampleJq releaseBucket)) "latest.json" =
        some (.json j₂) ∧
      (Manifest.parse .wrap (some j₁)).eligibleAt Manifest.sampleFractions (Int64.ofNat 25000) ⊆
        (Manifest.parse .wrap (some j₂)).eligibleAt Manifest.sampleFractions
          (Int64.ofNat 30000) := by
  have hobj : sampleRelease.isObject = true := rfl
  have hopen : sampleRelease.find "frozen_at" = none := by decide
  have hstaged : (Manifest.parse .wrap (some sampleRelease)).Staged :=
    Manifest.staged_parse rfl (by decide +kernel) (by decide +kernel)
  have hlatest : releaseBucket "latest.json" = some (.json sampleRelease) := rfl
  have hfreeze : FreezeLife sampleTools sampleJq (fun _ => True) 10000 releaseBucket 25000
      ((sampleFreezeRun true 20000).runIn sampleTools sampleJq releaseBucket) :=
    .run .start _ trivial (by decide) (by decide)
  have hunfreeze : FreezeLife sampleTools sampleJq (fun _ => True) 25000
      ((sampleFreezeRun true 20000).runIn sampleTools sampleJq releaseBucket) 30000
      ((sampleFreezeRun false 30000).runIn sampleTools sampleJq
        ((sampleFreezeRun true 20000).runIn sampleTools sampleJq releaseBucket)) :=
    .run .start _ trivial (by decide) (by decide)
  obtain ⟨j₁, j₂, hj₁, hj₂, hsub, -⟩ := offered_stays sampleTools sampleJq .wrap
    Manifest.sampleFractions hobj hopen hstaged hlatest hfreeze hunfreeze (by decide) (by decide)
  exact ⟨j₁, j₂, hj₁, hj₂, hsub⟩

end ThinrAgent
