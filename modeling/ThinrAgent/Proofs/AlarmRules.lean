import ThinrAgent.Auth.AlarmRules

/-!
# `ThinrAgent.Proofs.AlarmRules`: what seeding keeps on the server

`ensureDefaultAlarms` reads the identifiers on the server once. With `force` it deletes every
default rule that is there before it creates the first one. A default rule of the server is in
danger in between: it is gone when its deletion is carried out and its creation is not, and also
when the deletion is carried out but not reported, because the loop that creates rules then skips
it.

`deleteDefaults_filter` and `seedDefaults_filter` say which rules a loop does not touch.
`mem_deleteDefaults` and `seedDefaults_filter_of_mem` say what happens to the others, and
`seedDefaults_result` counts. `mem_ids_afterSeed_iff` puts them together for one default rule.
`seedsSafely_iff` is the main result: seeding loses nothing exactly when no default rule is
`Dropped`.
-/

set_option autoImplicit false

namespace ThinrAgent

/-- The identifiers of the rules, in the order of the listing. -/
def ruleIds (rules : List AlarmRule) : List String := rules.map AlarmRule.id

/-- The server lists its own rules and has carried out what it reports. -/
structure AlarmRequests.Honest (lib : JsonText) (account : AlarmAccount)
    (requests : AlarmRequests) (rules : List AlarmRule) : Prop where
  lists : ∀ response, requests.answer account.listRequest = .ok response → response.success = true →
    response.statusCode = 200 → lib.parse response.body = some (.arr (rules.map (·.definition)))
  deletes : ∀ ruleId, deleteAlarmRule requests.answer account ruleId = true →
    requests.executed (account.deleteRequest ruleId) = true
  creates : ∀ ruleData, (createAlarmRule requests.answer account ruleData).success = true →
    requests.executed (account.createRequest ruleData) = true

section Loops
variable {requests : AlarmRequests} {account : AlarmAccount}

/-- A deletion leaves the rules of every other identifier as they are, also when it fails or is
carried out without an answer. -/
theorem delete_filter {ruleId : String} {p : AlarmRule → Bool}
    (h : ∀ r, p r = true → r.id ≠ ruleId) (rules : List AlarmRule) :
    (requests.delete account ruleId rules).filter p = rules.filter p := by
  unfold AlarmRequests.delete
  split
  · rw [List.filter_filter]
    apply List.filter_congr
    intro r _
    cases hp : p r with
    | true => simp [h r hp]
    | false => simp
  · rfl

/-- A creation leaves the rules of every other identifier as they are. -/
theorem create_filter {ruleDef : AlarmRule} {p : AlarmRule → Bool}
    (h : ∀ r, p r = true → r.id ≠ ruleDef.id) (rules : List AlarmRule) :
    (requests.create account ruleDef rules).filter p = rules.filter p := by
  unfold AlarmRequests.create
  split
  · have hdef : p ruleDef = false := by
      cases hp : p ruleDef with
      | true => exact absurd rfl (h ruleDef hp)
      | false => rfl
    rw [List.filter_append, List.filter_filter, List.filter_singleton, hdef, cond_false,
      List.append_nil]
    apply List.filter_congr
    intro r _
    cases hp : p r with
    | true => simp [h r hp]
    | false => simp
  · rfl

/-- The rules with the name of a rule behind its creation. -/
theorem create_filter_self (d : AlarmRule) (rules : List AlarmRule) :
    (requests.create account d rules).filter (fun r => r.id = d.id) =
      if requests.executed (account.createRequest d.definition) = true then [d]
      else rules.filter fun r => r.id = d.id := by
  unfold AlarmRequests.create
  split
  · rw [List.filter_append, List.filter_filter, List.filter_singleton]
    simp
  · rfl

/-- The deletions leave the rules alone whose identifiers are not among the deleted ones. -/
theorem deleteDefaults_filter {defaults : List AlarmRule} {existing : List String}
    {p : AlarmRule → Bool}
    (h : ∀ d ∈ defaults, d.id ∈ existing →
      requests.executed (account.deleteRequest d.id) = true → ∀ r, p r = true → r.id ≠ d.id)
    (rules : List AlarmRule) :
    (deleteDefaults requests account defaults existing rules).2.filter p = rules.filter p := by
  induction defaults generalizing existing rules with
  | nil => rfl
  | cons d ds ih =>
    rw [List.forall_mem_cons] at h
    rw [deleteDefaults]
    split
    · exact ih h.2 rules
    · next hskip =>
      rw [not_or, not_not] at hskip
      rw [ih]
      · by_cases hexec : requests.executed (account.deleteRequest d.id) = true
        · exact delete_filter (h.1 hskip.2 hexec) rules
        · rw [AlarmRequests.delete, if_neg hexec]
      · intro d' hd' hmem
        refine h.2 d' hd' ?_
        split at hmem
        · exact List.mem_of_mem_filter hmem
        · exact hmem

/-- An identifier stays in the set unless its deletion is reported. -/
theorem mem_deleteDefaults {defaults : List AlarmRule} (hne : ∀ d ∈ defaults, d.id ≠ "")
    (existing : List String) (rules : List AlarmRule) (ruleId : String) :
    ruleId ∈ (deleteDefaults requests account defaults existing rules).1 ↔
      ruleId ∈ existing ∧
        ¬(ruleId ∈ ruleIds defaults ∧ deleteAlarmRule requests.answer account ruleId = true) := by
  -- The loop goes over the defaults, and each step takes out its own identifier at most.
  induction defaults generalizing existing rules with
  | nil => simp [deleteDefaults, ruleIds]
  | cons d ds ih =>
    rw [List.forall_mem_cons] at hne
    rw [deleteDefaults]
    have hids : ruleId ∈ ruleIds (d :: ds) ↔ ruleId = d.id ∨ ruleId ∈ ruleIds ds := by
      simp [ruleIds]
    rw [hids]
    split
    · next hskip =>
      have hnot : d.id ∉ existing := hskip.resolve_left hne.1
      rw [ih hne.2]
      by_cases heq : ruleId = d.id
      · subst heq
        simp [hnot]
      · simp [heq]
    · rw [ih hne.2]
      by_cases hdel : deleteAlarmRule requests.answer account d.id = true
      · rw [if_pos hdel, List.mem_filter]
        by_cases heq : ruleId = d.id
        · subst heq
          simp [hdel]
        · simp [heq]
      · rw [if_neg hdel]
        by_cases heq : ruleId = d.id
        · subst heq
          simp [hdel]
        · simp [heq]

/-- A deletion adds no rule: what the server has afterwards it had before. -/
theorem deleteDefaults_subset (defaults : List AlarmRule) (existing : List String)
    (rules : List AlarmRule) :
    (deleteDefaults requests account defaults existing rules).2 ⊆ rules := by
  induction defaults generalizing existing rules with
  | nil => exact List.Subset.refl rules
  | cons d ds ih =>
    rw [deleteDefaults]
    split
    · exact ih existing rules
    · refine List.Subset.trans (ih _ _) ?_
      unfold AlarmRequests.delete
      split
      · exact List.filter_subset_self _
      · exact List.Subset.refl rules

/-- A deletion that is carried out removes the identifier for the rest of the loop. -/
theorem not_mem_ids_deleteDefaults {defaults : List AlarmRule} (hne : ∀ d ∈ defaults, d.id ≠ "")
    {existing : List String} {rules : List AlarmRule} {ruleId : String}
    (hdefault : ruleId ∈ ruleIds defaults) (hexisting : ruleId ∈ existing)
    (hexec : requests.executed (account.deleteRequest ruleId) = true) :
    ruleId ∉ ruleIds (deleteDefaults requests account defaults existing rules).2 := by
  induction defaults generalizing existing rules with
  | nil => simp [ruleIds] at hdefault
  | cons d ds ih =>
    rw [List.forall_mem_cons] at hne
    rw [deleteDefaults]
    -- After the deletion the rest of the loop only removes.
    by_cases heq : d.id = ruleId
    · subst heq
      rw [if_neg (by simp [hne.1, hexisting])]
      intro hmem
      obtain ⟨r, hr, hid⟩ := List.mem_map.mp hmem
      have hr' := deleteDefaults_subset ds _ _ hr
      rw [AlarmRequests.delete, if_pos hexec, List.mem_filter] at hr'
      simp [hid] at hr'
    · have hdefault' : ruleId ∈ ruleIds ds := by
        rw [ruleIds, List.map_cons, List.mem_cons] at hdefault
        exact hdefault.resolve_left fun h => heq h.symm
      split
      · exact ih hne.2 hdefault' hexisting
      · refine ih hne.2 hdefault' ?_
        split
        · simp [List.mem_filter, hexisting, Ne.symm heq]
        · exact hexisting

/-- The creations leave the rules alone that do not share the name of a missing one. -/
theorem seedDefaults_filter {defaults : List AlarmRule} {existing : List String}
    {p : AlarmRule → Bool}
    (h : ∀ d ∈ defaults, d.id ≠ "" → d.id ∉ existing → ∀ r, p r = true → r.id ≠ d.id)
    (result : EnsureAlarmsResult) (rules : List AlarmRule) :
    (seedDefaults requests account defaults existing result rules).2.filter p = rules.filter p := by
  induction defaults generalizing result rules with
  | nil => rfl
  | cons d ds ih =>
    rw [List.forall_mem_cons] at h
    rw [seedDefaults]
    split
    · exact ih h.2 result rules
    · next hne =>
      split
      · exact ih h.2 _ rules
      · next hmissing =>
        rw [ih h.2]
        exact create_filter (h.1 hne hmissing) rules

/-- The rules with the name of a missing default rule are those behind its creation. -/
theorem seedDefaults_filter_of_mem {defaults : List AlarmRule}
    (hnodup : (ruleIds defaults).Nodup) {existing : List String} {d : AlarmRule}
    (hd : d ∈ defaults) (hne : d.id ≠ "") (hmissing : d.id ∉ existing)
    (result : EnsureAlarmsResult) (rules : List AlarmRule) :
    (seedDefaults requests account defaults existing result rules).2.filter
        (fun r => r.id = d.id) =
      (requests.create account d rules).filter fun r => r.id = d.id := by
  induction defaults generalizing result rules with
  | nil => cases hd
  | cons e es ih =>
    rw [ruleIds, List.map_cons, List.nodup_cons] at hnodup
    rw [seedDefaults]
    -- The rule itself is created here, and no later one has its name. An earlier one leaves its
    -- name alone.
    rcases List.mem_cons.mp hd with rfl | hd'
    · rw [if_neg hne, if_neg hmissing]
      apply seedDefaults_filter
      intro d' hd' _ _ r hr heq
      rw [decide_eq_true_eq] at hr
      exact hnodup.1 (hr ▸ heq ▸ List.mem_map_of_mem hd')
    · have hother : e.id ≠ d.id := fun heq => hnodup.1 (heq ▸ List.mem_map_of_mem hd')
      split
      · exact ih hnodup.2 hd' _ _
      · split
        · exact ih hnodup.2 hd' _ _
        · rw [ih hnodup.2 hd', create_filter_self, create_filter_self, create_filter]
          intro r hr heq
          rw [decide_eq_true_eq] at hr
          exact hother (heq ▸ hr)

/-- The counters of the loop that creates rules. -/
theorem seedDefaults_result {defaults : List AlarmRule} (hne : ∀ d ∈ defaults, d.id ≠ "")
    (existing : List String) (result : EnsureAlarmsResult) (rules : List AlarmRule) :
    (seedDefaults requests account defaults existing result rules).1 =
      { listed := result.listed
        created := result.created + defaults.countP fun d => d.id ∉ existing ∧
          (createAlarmRule requests.answer account d.definition).success = true
        alreadyPresent := result.alreadyPresent + defaults.countP fun d => d.id ∈ existing
        failed := result.failed + defaults.countP fun d => d.id ∉ existing ∧
          (createAlarmRule requests.answer account d.definition).success = false } := by
  induction defaults generalizing result rules with
  | nil => rfl
  | cons d ds ih =>
    rw [List.forall_mem_cons] at hne
    rw [seedDefaults, if_neg hne.1]
    simp only [List.countP_cons]
    split
    · next hmem =>
      rw [ih hne.2]
      simp [hmem, Nat.add_assoc, Nat.add_comm 1]
    · next hmissing =>
      rw [ih hne.2]
      cases (createAlarmRule requests.answer account d.definition).success with
      | true => simp [hmissing, Nat.add_assoc, Nat.add_comm 1]
      | false => simp [hmissing, Nat.add_assoc, Nat.add_comm 1]

end Loops

/-- The default rules have different identifiers, so a step for one of them does not meet
another. -/
theorem nodup_ruleIds_defaultAlarmRules : (ruleIds defaultAlarmRules).Nodup := by
  show ["high_cpu", "high_memory", "high_disk", "high_swap", "high_cpu_temperature",
    "missing_bucket_data"].Nodup
  decide

/-- No default rule has the empty identifier, which is the one the code reads out of a rule that has
none. -/
theorem id_ne_of_mem_defaultAlarmRules : ∀ d ∈ defaultAlarmRules, d.id ≠ "" := by
  intro d hd
  have hid : d.id ∈ ruleIds defaultAlarmRules := List.mem_map_of_mem hd
  have hnames : ∀ name ∈ ["high_cpu", "high_memory", "high_disk", "high_swap",
      "high_cpu_temperature", "missing_bucket_data"], name ≠ "" := by decide
  exact hnames d.id hid

section Ensure
variable {lib : JsonText} {requests : AlarmRequests} {account : AlarmAccount}
variable {rules : List AlarmRule}

/-- Reading the identifiers out of the definitions of rules succeeds and gives the identifiers. -/
theorem mapM_named (rules : List AlarmRule) :
    (rules.map (·.definition)).mapM (fun r => r.value Json.getString "rule" "") =
      .ok (ruleIds rules) := by
  induction rules with
  | nil => rfl
  | cons r rs ih =>
    rw [List.map_cons, List.mapM_cons, r.named, ih]
    rfl

/-- What the first loop starts with: the identifiers of the server's rules, without the empty
ones. -/
def knownIds (rules : List AlarmRule) : List String := (ruleIds rules).filter fun id => id ≠ ""

/-- An identifier is among those the code has read exactly when a rule has it. The empty one is left
out of the reading. -/
theorem mem_knownIds {ruleId : String} (hne : ruleId ≠ "") :
    ruleId ∈ knownIds rules ↔ ruleId ∈ ruleIds rules := by
  simp [knownIds, hne]

/-- A listing that is reported as a success contains the definitions of the rules that are on the
server. -/
theorem listAlarmRules_rules (hhonest : requests.Honest lib account rules)
    (hlisted : (listAlarmRules lib requests.answer account).success = true) :
    (listAlarmRules lib requests.answer account).rules = .arr (rules.map (·.definition)) := by
  unfold listAlarmRules at hlisted ⊢
  cases hanswer : requests.answer account.listRequest with
  | error e => simp [hanswer] at hlisted
  | ok response =>
    by_cases hok : response.success = true ∧ response.statusCode = 200
    · have hparse := hhonest.lists response hanswer hok.1 hok.2
      simp [hok.1, hok.2, hparse]
    · have hfail : (!response.success || decide (response.statusCode ≠ 200)) = true := by
        by_cases hsuccess : response.success = true
        · simp [show response.statusCode ≠ 200 from fun h => hok ⟨hsuccess, h⟩]
        · simp [hsuccess]
      rw [hanswer] at hlisted
      simp only [hfail, if_true, Bool.false_eq_true] at hlisted

/-- When the listing fails nothing is created or deleted, with or without `force`. -/
theorem ensureDefaultAlarms_of_not_listed (force : Bool)
    (hlisted : (listAlarmRules lib requests.answer account).success = false) :
    ensureDefaultAlarms lib requests account force rules = .ok ({}, rules) := by
  unfold ensureDefaultAlarms
  simp [hlisted, pure, Except.pure]

/-- The identifiers and the server's rules behind the loop of `force`. -/
def afterForce (requests : AlarmRequests) (account : AlarmAccount) (force : Bool)
    (rules : List AlarmRule) : List String × List AlarmRule :=
  if force then deleteDefaults requests account defaultAlarmRules (knownIds rules) rules
  else (knownIds rules, rules)

/-- The result and the server's rules behind both loops: the deletions of `force`, and the creations
of what is missing then. -/
def afterSeed (requests : AlarmRequests) (account : AlarmAccount) (force : Bool)
    (rules : List AlarmRule) : EnsureAlarmsResult × List AlarmRule :=
  seedDefaults requests account defaultAlarmRules (afterForce requests account force rules).1
    { listed := true } (afterForce requests account force rules).2

/-- After a listing the whole seeding is `afterSeed`, the loops over the default rules, and it does
not throw. -/
theorem ensureDefaultAlarms_of_listed (hhonest : requests.Honest lib account rules) (force : Bool)
    (hlisted : (listAlarmRules lib requests.answer account).success = true) :
    ensureDefaultAlarms lib requests account force rules =
      .ok ((afterSeed requests account force rules).1,
        (afterSeed requests account force rules).2) := by
  have hids : existingIds (listAlarmRules lib requests.answer account).rules =
      .ok (knownIds rules) := by
    rw [listAlarmRules_rules hhonest hlisted, existingIds, mapM_named]
    rfl
  unfold ensureDefaultAlarms
  simp only [hlisted, hids]
  rfl

/-- The server has lost a default rule: it has carried out the deletion, and either it has not said
so or it has not carried out the creation. -/
def Dropped (requests : AlarmRequests) (account : AlarmAccount) (d : AlarmRule) : Prop :=
  requests.executed (account.deleteRequest d.id) = true ∧
    ¬(deleteAlarmRule requests.answer account d.id = true ∧
      requests.executed (account.createRequest d.definition) = true)

/-- A rule is on the server exactly when the listing has an entry with its identifier. -/
theorem mem_ruleIds_iff {ruleId : String} :
    ruleId ∈ ruleIds rules ↔ rules.filter (fun r => r.id = ruleId) ≠ [] := by
  rw [ne_eq, List.filter_eq_nil_iff]
  simp [ruleIds]

/-- A rule that was absent is present after its creation exactly when the request was carried
out. -/
theorem mem_ruleIds_create {d : AlarmRule} (hgone : d.id ∉ ruleIds rules) :
    (requests.create account d rules).filter (fun r => r.id = d.id) ≠ [] ↔
      requests.executed (account.createRequest d.definition) = true := by
  rw [mem_ruleIds_iff, not_not] at hgone
  rw [create_filter_self, hgone]
  split
  · next hexec => simp [hexec]
  · next hexec => simp [hexec]

/-- A default rule of the server is there at the end unless it is dropped. -/
theorem mem_ids_afterSeed_iff (hhonest : requests.Honest lib account rules) (force : Bool)
    {d : AlarmRule} (hd : d ∈ defaultAlarmRules) (hmem : d.id ∈ ruleIds rules) :
    d.id ∈ ruleIds (afterSeed requests account force rules).2 ↔
      (force = true → ¬Dropped requests account d) := by
  have hne := id_ne_of_mem_defaultAlarmRules d hd
  have hknown : d.id ∈ knownIds rules := (mem_knownIds hne).mpr hmem
  have hdefault : d.id ∈ ruleIds defaultAlarmRules := List.mem_map_of_mem hd
  -- A rule that is still in the set is not created again.
  have hskip : d.id ∈ (afterForce requests account force rules).1 →
      (d.id ∈ ruleIds (afterSeed requests account force rules).2 ↔
        d.id ∈ ruleIds (afterForce requests account force rules).2) := by
    intro hset
    rw [mem_ruleIds_iff, mem_ruleIds_iff, afterSeed, seedDefaults_filter]
    intro d' _ _ hmissing r hr heq
    rw [decide_eq_true_eq] at hr
    exact hmissing (heq ▸ hr ▸ hset)
  cases force with
  | false =>
    rw [hskip hknown]
    simpa [afterForce] using hmem
  | true =>
    have hset : d.id ∈ (afterForce requests account true rules).1 ↔
        ¬deleteAlarmRule requests.answer account d.id = true := by
      rw [afterForce, if_pos rfl, mem_deleteDefaults id_ne_of_mem_defaultAlarmRules]
      simp [hknown, hdefault]
    by_cases hexec : requests.executed (account.deleteRequest d.id) = true
    · have hgone : d.id ∉ ruleIds (afterForce requests account true rules).2 := by
        rw [afterForce, if_pos rfl]
        exact not_mem_ids_deleteDefaults id_ne_of_mem_defaultAlarmRules hdefault hknown hexec
      by_cases hreported : deleteAlarmRule requests.answer account d.id = true
      · have hmissing : d.id ∉ (afterForce requests account true rules).1 := fun h =>
          hset.mp h hreported
        rw [mem_ruleIds_iff, afterSeed,
          seedDefaults_filter_of_mem nodup_ruleIds_defaultAlarmRules hd hne hmissing,
          mem_ruleIds_create hgone]
        simp [Dropped, hexec, hreported]
      · rw [hskip (hset.mpr hreported)]
        simp [Dropped, hexec, hreported, hgone]
    · have hreported : ¬deleteAlarmRule requests.answer account d.id = true := fun h =>
        hexec (hhonest.deletes _ h)
      have hstays : d.id ∈ ruleIds (afterForce requests account true rules).2 := by
        rw [mem_ruleIds_iff, afterForce, if_pos rfl, deleteDefaults_filter]
        · exact mem_ruleIds_iff.mp hmem
        · intro d' _ _ hexec' r hr heq
          rw [decide_eq_true_eq] at hr
          exact hexec (hr ▸ heq ▸ hexec')
      rw [hskip (hset.mpr hreported)]
      simp [Dropped, hexec, hstays]

/-- No rule with another name than those of the defaults is touched, whatever fails and whether
`force` is set. -/
theorem afterSeed_filter (force : Bool) :
    (afterSeed requests account force rules).2.filter
        (fun r => r.id ∉ ruleIds defaultAlarmRules) =
      rules.filter fun r => r.id ∉ ruleIds defaultAlarmRules := by
  have hother : ∀ d ∈ defaultAlarmRules, ∀ r : AlarmRule,
      decide (r.id ∉ ruleIds defaultAlarmRules) = true → r.id ≠ d.id := by
    intro d hd r hr heq
    rw [decide_eq_true_eq] at hr
    exact hr (heq ▸ List.mem_map_of_mem hd)
  rw [afterSeed, seedDefaults_filter fun d hd _ _ => hother d hd]
  cases force with
  | false => rfl
  | true =>
    rw [afterForce, if_pos rfl]
    exact deleteDefaults_filter (fun d hd _ _ => hother d hd) rules

/-- Without `force` the rules of the server stay as they are. -/
theorem afterSeed_filter_of_not_force :
    (afterSeed requests account false rules).2.filter (fun r => r.id ∈ ruleIds rules) = rules := by
  rw [afterSeed, seedDefaults_filter]
  · rw [afterForce, if_neg Bool.false_ne_true, List.filter_eq_self]
    intro r hr
    rw [decide_eq_true_eq]
    exact List.mem_map_of_mem hr
  · intro d _ hne hmissing r hr heq
    rw [decide_eq_true_eq, heq, ← mem_knownIds hne] at hr
    exact hmissing hr

/-- The counters add up to the number of default rules: each is created, present already, or has
failed. -/
theorem afterSeed_counts (force : Bool) :
    (afterSeed requests account force rules).1.created +
        (afterSeed requests account force rules).1.alreadyPresent +
        (afterSeed requests account force rules).1.failed = defaultAlarmRules.length := by
  -- Each default rule is counted once: created, there before, or failed.
  have hcount : ∀ (ds : List AlarmRule) (existing : List String),
      (ds.countP fun d => d.id ∉ existing ∧
          (createAlarmRule requests.answer account d.definition).success = true) +
        (ds.countP fun d => d.id ∈ existing) +
        (ds.countP fun d => d.id ∉ existing ∧
          (createAlarmRule requests.answer account d.definition).success = false) = ds.length := by
    intro ds existing
    induction ds with
    | nil => rfl
    | cons d ds ih =>
      simp only [List.countP_cons, List.length_cons, decide_eq_true_eq]
      by_cases hmem : d.id ∈ existing
      · simp only [hmem, not_true, false_and, if_false, if_true]
        omega
      · cases (createAlarmRule requests.answer account d.definition).success with
        | true =>
          simp only [hmem, not_false_eq_true, true_and, if_true, if_false, Bool.true_eq_false]
          omega
        | false =>
          simp only [hmem, not_false_eq_true, true_and, if_true, if_false, Bool.false_eq_true]
          omega
  rw [afterSeed, seedDefaults_result id_ne_of_mem_defaultAlarmRules]
  simp only [Nat.zero_add]
  exact hcount _ _

/-- With no failure every default rule is created or was in the set. -/
theorem created_of_failed_eq_zero {force : Bool}
    (hfailed : (afterSeed requests account force rules).1.failed = 0) {d : AlarmRule}
    (hd : d ∈ defaultAlarmRules) (hmissing : d.id ∉ (afterForce requests account force rules).1) :
    (createAlarmRule requests.answer account d.definition).success = true := by
  rw [afterSeed, seedDefaults_result id_ne_of_mem_defaultAlarmRules] at hfailed
  simp only [Nat.zero_add, List.countP_eq_zero, decide_eq_true_eq] at hfailed
  have hnot := hfailed d hd
  by_contra hcreate
  exact hnot ⟨hmissing, by simpa using hcreate⟩

end Ensure

/-- What a call should have done to the rules of the server, with its result. -/
structure SafelySeeded (lib : JsonText) (account : AlarmAccount) (force : Bool)
    (rules : List AlarmRule) (result : EnsureAlarmsResult) (after : List AlarmRule) : Prop where
  kept : ∀ ruleId ∈ ruleIds rules, ruleId ∈ ruleIds after
  untouched : after.filter (fun r => r.id ∉ ruleIds defaultAlarmRules) =
    rules.filter fun r => r.id ∉ ruleIds defaultAlarmRules
  unforced : force = false → after.filter (fun r => r.id ∈ ruleIds rules) = rules
  counted : result.listed = true →
    result.created + result.alreadyPresent + result.failed = defaultAlarmRules.length
  /-- A second call without `force` creates nothing, whatever happens to its requests. -/
  settled : result.listed = true → result.failed = 0 → ∀ requests : AlarmRequests,
    requests.Honest lib account after → ∃ result' after',
      ensureDefaultAlarms lib requests account false after = .ok (result', after') ∧
        result'.created = 0

/-- The seeding ends without an exception and keeps the alarm rules of the server safe. -/
def SeedsSafely (lib : JsonText) (requests : AlarmRequests) (account : AlarmAccount) (force : Bool)
    (rules : List AlarmRule) : Prop :=
  ∃ result after, ensureDefaultAlarms lib requests account force rules = .ok (result, after) ∧
    SafelySeeded lib account force rules result after

section Main
variable {lib : JsonText} {requests : AlarmRequests} {account : AlarmAccount}
variable {rules : List AlarmRule}

/-- Without `force` nothing is created when the server has every default rule. -/
theorem created_eq_zero (hhonest : requests.Honest lib account rules)
    (hall : ∀ d ∈ defaultAlarmRules, d.id ∈ ruleIds rules) : ∃ result after,
      ensureDefaultAlarms lib requests account false rules = .ok (result, after) ∧
        result.created = 0 := by
  cases hlisted : (listAlarmRules lib requests.answer account).success with
  | false => exact ⟨_, _, ensureDefaultAlarms_of_not_listed false hlisted, rfl⟩
  | true =>
    refine ⟨_, _, ensureDefaultAlarms_of_listed hhonest false hlisted, ?_⟩
    rw [afterSeed, seedDefaults_result id_ne_of_mem_defaultAlarmRules]
    simp only [Nat.zero_add, List.countP_eq_zero, decide_eq_true_eq]
    intro d hd hcreated
    exact hcreated.1 ((mem_knownIds (id_ne_of_mem_defaultAlarmRules d hd)).mpr (hall d hd))

/-- After a call without failures the server has every default rule, unless one was dropped. -/
theorem mem_ids_of_failed_eq_zero (hhonest : requests.Honest lib account rules) {force : Bool}
    (hkept : ∀ ruleId ∈ ruleIds rules, ruleId ∈ ruleIds (afterSeed requests account force rules).2)
    (hfailed : (afterSeed requests account force rules).1.failed = 0) :
    ∀ d ∈ defaultAlarmRules, d.id ∈ ruleIds (afterSeed requests account force rules).2 := by
  intro d hd
  have hne := id_ne_of_mem_defaultAlarmRules d hd
  by_cases hset : d.id ∈ (afterForce requests account force rules).1
  · -- The set only holds identifiers of the listing.
    have hknown : d.id ∈ knownIds rules := by
      cases force with
      | false => exact hset
      | true =>
        rw [afterForce, if_pos rfl, mem_deleteDefaults id_ne_of_mem_defaultAlarmRules] at hset
        exact hset.1
    exact hkept d.id ((mem_knownIds hne).mp hknown)
  · have hexec := hhonest.creates _ (created_of_failed_eq_zero hfailed hd hset)
    rw [mem_ruleIds_iff, afterSeed,
      seedDefaults_filter_of_mem nodup_ruleIds_defaultAlarmRules hd hne hset, create_filter_self,
      if_pos hexec]
    exact List.cons_ne_nil _ _

/-- Seeding is safe exactly when, with `force` and a listing, the server drops none of its default
rules: a deletion that it has carried out it has also reported, and it has carried out the creation
after it. Without `force` nothing is deleted, and seeding is always safe. -/
theorem seedsSafely_iff (lib : JsonText) (requests : AlarmRequests) (account : AlarmAccount)
    (force : Bool) (rules : List AlarmRule) (hhonest : requests.Honest lib account rules) :
    SeedsSafely lib requests account force rules ↔
      (force = true → (listAlarmRules lib requests.answer account).success = true →
        ∀ d ∈ defaultAlarmRules, d.id ∈ ruleIds rules → ¬Dropped requests account d) := by
  cases hlisted : (listAlarmRules lib requests.answer account).success with
  | false =>
    -- The list could not be read, so nothing was deleted or created.
    refine iff_of_true ⟨_, _, ensureDefaultAlarms_of_not_listed force hlisted, ?_⟩ (by simp)
    exact
      { kept := fun _ hid => hid
        untouched := rfl
        unforced := fun _ => List.filter_eq_self.mpr fun r hr =>
          decide_eq_true (List.mem_map_of_mem hr)
        counted := fun h => absurd h Bool.false_ne_true
        settled := fun h => absurd h Bool.false_ne_true }
  | true =>
    have hrun := ensureDefaultAlarms_of_listed hhonest force hlisted
    constructor
    · rintro ⟨result, after, hrun', hsafe⟩ hforce _ d hd hmem
      have hafter : after = (afterSeed requests account force rules).2 :=
        (congrArg Prod.snd (Except.ok.inj (hrun.symm.trans hrun'))).symm
      rw [hafter] at hsafe
      exact (mem_ids_afterSeed_iff hhonest force hd hmem).mp (hsafe.kept d.id hmem) hforce
    · intro hnone
      have hkept : ∀ ruleId ∈ ruleIds rules,
          ruleId ∈ ruleIds (afterSeed requests account force rules).2 := by
        intro ruleId hmem
        -- A default rule is kept unless it is dropped, every other rule is not touched.
        by_cases hdefault : ruleId ∈ ruleIds defaultAlarmRules
        · obtain ⟨d, hd, rfl⟩ := List.mem_map.mp hdefault
          exact (mem_ids_afterSeed_iff hhonest force hd hmem).mpr fun hforce =>
            hnone hforce rfl d hd hmem
        · obtain ⟨r, hr, rfl⟩ := List.mem_map.mp hmem
          have hstays : r ∈ rules.filter fun r => r.id ∉ ruleIds defaultAlarmRules :=
            List.mem_filter.mpr ⟨hr, decide_eq_true hdefault⟩
          have hsame : (afterSeed requests account force rules).2.filter
              (fun r => r.id ∉ ruleIds defaultAlarmRules) = _ := afterSeed_filter force
          rw [← hsame] at hstays
          exact List.mem_map_of_mem (List.mem_of_mem_filter hstays)
      refine ⟨_, _, hrun, ?_⟩
      exact
        { kept := hkept
          untouched := afterSeed_filter force
          unforced := fun hforce => by
            subst hforce
            exact afterSeed_filter_of_not_force
          counted := fun _ => afterSeed_counts force
          settled := fun _ hfailed requests' hhonest' =>
            created_eq_zero hhonest' (mem_ids_of_failed_eq_zero hhonest hkept hfailed) }

end Main

section Sample

/-- A rule of the user under the name of a default rule. -/
def sampleAlarmRule : AlarmRule where
  id := "high_cpu"
  definition := .obj [("rule", .str "high_cpu")]
  named := rfl

/-- A library that also reads the listing of this rule. -/
def sampleListingText : JsonText where
  dump := JsonText.compact.dump
  parse text := (JsonText.compact.parse text).or
    (if text = "[\x7b\"rule\":\"high_cpu\"\x7d]" then some (.arr [sampleAlarmRule.definition])
    else none)
  parse_dump kvs hflat := by
    obtain ⟨kvs', hperm, hparse⟩ := JsonText.compact.parse_dump kvs hflat
    exact ⟨kvs', hperm, by rw [hparse, Option.some_or]⟩

/-- The server deletes and lists, and creates when it is `up`. -/
def sampleAlarmRequests (up : Bool) : AlarmRequests where
  answer request :=
    if request.method = "GET" then
      .ok { statusCode := 200, body := "[\x7b\"rule\":\"high_cpu\"\x7d]", success := true }
    else if request.method = "DELETE" then .ok { statusCode := 204, body := "", success := true }
    else if up then .ok { statusCode := 201, body := "", success := true }
    else .error "HTTP request failed: timeout"
  executed request := request.method = "DELETE" || (up && request.method = "POST")

/-- The account of the sample server, for the runs on fixed inputs in this module. -/
def sampleAlarmAccount : AlarmAccount :=
  { host := "thinger.example", username := "ada", accessToken := "t" }

/-- The sample server lists the rule that it has, whether or not it is up. -/
theorem honest_sampleAlarmRequests (up : Bool) :
    (sampleAlarmRequests up).Honest sampleListingText sampleAlarmAccount [sampleAlarmRule] where
  lists response hanswer _ _ := by
    cases hanswer
    rfl
  deletes ruleId _ := rfl
  creates ruleData hcreated := by
    cases up with
    | true => rfl
    | false => exact absurd hcreated Bool.false_ne_true

/-- A forced seeding over a server that answers every request replaces the rule safely. -/
theorem seedsSafely_iff_sample : SeedsSafely sampleListingText (sampleAlarmRequests true)
    sampleAlarmAccount true [sampleAlarmRule] :=
  (seedsSafely_iff _ _ _ _ _ (honest_sampleAlarmRequests true)).mpr fun _ _ _ _ _ hdropped =>
    hdropped.2 ⟨rfl, rfl⟩

/-- The rule is deleted and the connection fails before it is created again. -/
theorem not_seedsSafely_sample :
    (sampleAlarmRequests false).Honest sampleListingText sampleAlarmAccount [sampleAlarmRule] ∧
      ¬SeedsSafely sampleListingText (sampleAlarmRequests false) sampleAlarmAccount true
        [sampleAlarmRule] := by
  refine ⟨honest_sampleAlarmRequests false, ?_⟩
  rintro ⟨result, after, hrun, hsafe⟩
  have hgone : (ensureDefaultAlarms sampleListingText (sampleAlarmRequests false)
      sampleAlarmAccount true [sampleAlarmRule]).toOption.map (fun run => ruleIds run.2) =
        some [] := by
    decide +kernel
  rw [hrun] at hgone
  have hkept := hsafe.kept "high_cpu" (List.mem_singleton.mpr rfl)
  rw [show ruleIds after = [] from Option.some.inj hgone] at hkept
  exact List.not_mem_nil hkept

end Sample

end ThinrAgent
