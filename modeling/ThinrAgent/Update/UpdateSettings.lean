import ThinrAgent.Std.Json

/-!
# `ThinrAgent.Update.UpdateSettings`: the `update` section of the configuration

The policy, its source and the other settings of `update/update_settings.{hpp,cpp}`, with the
tolerant reader `fromJson` and the rule `effectivePolicy` that combines the local settings with
an override of the cloud.
-/

set_option autoImplicit false

namespace ThinrAgent

/-- Who decides that the device updates: the device itself, from its channel, or the cloud. -/
inductive UpdatePolicy where
  | automatic  -- "auto": poll and self-update from the channel
  | managed    -- no self-polling; only orchestrated updates
  deriving DecidableEq, Repr

/-- Where the stored policy comes from. A policy the user has set locally is not overridden by the
cloud. -/
inductive PolicySource where
  | defaulted
  | localExplicit
  | remote
  deriving DecidableEq, Repr

/-- The policy as it is written in the configuration. -/
def UpdatePolicy.toString : UpdatePolicy → String
  | managed => "managed"
  | automatic => "auto"

/-- `policy_from_string`: the policy with this name, `auto` or `managed`. Any other text names no
policy. -/
def UpdatePolicy.ofString (text : String) : Option UpdatePolicy :=
  if text = "auto" then some .automatic
  else if text = "managed" then some .managed
  else none

/-- A text is read as a policy exactly when it is the text the policy is written as. -/
theorem UpdatePolicy.ofString_eq_some {text : String} {policy : UpdatePolicy} :
    ofString text = some policy ↔ text = policy.toString := by
  unfold ofString
  by_cases hauto : text = "auto"
  · subst hauto
    cases policy <;> decide
  · by_cases hmanaged : text = "managed"
    · subst hmanaged
      cases policy <;> decide
    · cases policy <;> simp [toString, hauto, hmanaged]

/-- The source as it is written in the configuration. -/
def PolicySource.toString : PolicySource → String
  | localExplicit => "local_explicit"
  | remote => "remote"
  | defaulted => "default"

/-- `source_from_string`: where a policy comes from. A text that is neither of the two names counts
as the default. -/
def PolicySource.ofString (text : String) : PolicySource :=
  if text = "local_explicit" then .localExplicit
  else if text = "remote" then .remote
  else .defaulted

/-- The shortest time between two polls, in hours. -/
def CHECK_INTERVAL_MIN_H : Int32 := 1

/-- The longest time between two polls, one week in hours. -/
def CHECK_INTERVAL_MAX_H : Int32 := 168

/-- The time between two polls when the configuration has none. -/
def CHECK_INTERVAL_DEFAULT_H : Int32 := 6

/-- The shortest trial of a new version, in seconds. -/
def ROLLBACK_DEADLINE_MIN_S : Int32 := 30

/-- The longest trial of a new version, in seconds. -/
def ROLLBACK_DEADLINE_MAX_S : Int32 := 600

/-- The time for the trial of a new version when the configuration has none. -/
def ROLLBACK_DEADLINE_DEFAULT_S : Int32 := 90

/-- The `update` section as the agent uses it, with the values an empty section gives. -/
structure UpdateSettings where
  policy : UpdatePolicy := .automatic
  source : PolicySource := .defaulted
  channel : String := "latest"
  checkIntervalH : Int32 := CHECK_INTERVAL_DEFAULT_H
  rollbackDeadlineS : Int32 := ROLLBACK_DEADLINE_DEFAULT_S
  deriving DecidableEq

/-- The characters a channel may have: it becomes part of a URL and of a path on the server. -/
def validChannelChar (c : Char) : Bool :=
  c.isAlphanum || c = '.' || c = '_' || c = '-'

/-- Two dots in a row stand somewhere in the text. -/
def hasDotDot : List Char → Bool
  | '.' :: '.' :: _ => true
  | _ :: cs => hasDotDot cs
  | [] => false

/-- A channel is not empty, has only allowed characters and no two dots in a row. -/
def validChannel (channel : String) : Bool :=
  channel ≠ "" && !hasDotDot channel.toList && channel.toList.all validChannelChar

/-- `clamp_int`: the default for a missing or non-integer entry, or else the entry, converted to
`int` and then moved into the range. -/
def clampInt (j : Json) (key : String) (dflt lo hi : Int32) : Int32 :=
  match j.find key with
  | some (.int z) =>
    let v := Int32.ofInt z
    if v < lo then lo else if hi < v then hi else v
  | _ => dflt

namespace UpdateSettings

/-- The entry of `j` at `key`, when it is a string. -/
def stringAt (j : Json) (key : String) : Option String :=
  match j.find key with
  | some (.str text) => some text
  | _ => none

/-- `update_settings::from_json`. A value that is no object has no entries, so every field of it
falls back to its default. -/
def fromJson (j : Json) : UpdateSettings where
  policy := ((stringAt j "policy").bind UpdatePolicy.ofString).getD .automatic
  source := ((stringAt j "policy_source").map PolicySource.ofString).getD .defaulted
  channel := ((stringAt j "channel").filter (validChannel ·)).getD "latest"
  checkIntervalH := clampInt j "check_interval_h" CHECK_INTERVAL_DEFAULT_H CHECK_INTERVAL_MIN_H
    CHECK_INTERVAL_MAX_H
  rollbackDeadlineS := clampInt j "rollback_deadline_s" ROLLBACK_DEADLINE_DEFAULT_S
    ROLLBACK_DEADLINE_MIN_S ROLLBACK_DEADLINE_MAX_S

/-- The string at a key, read as the source reads it: the type is tested before the access. -/
def readString (j : Json) (key : String) : Except JsonError (Option String) :=
  match j.find key with
  | some entry => if entry.isString then some <$> entry.getString else .ok none
  | none => .ok none

/-- `clamp_int` with the access that can throw. The value is cut to 32 bits before it is clamped,
and a value that is no integer counts as absent. -/
def readInt (j : Json) (key : String) (dflt lo hi : Int32) : Except JsonError Int32 :=
  match j.find key with
  | some entry =>
    if entry.isInteger then do
      let v ← entry.getInt32
      return if v < lo then lo else if hi < v then hi else v
    else .ok dflt
  | none => .ok dflt

/-- `update_settings::from_json` with the accesses of the library, which throw on a wrong type. -/
def read (j : Json) : Except JsonError UpdateSettings := do
  if !j.isObject then return {}
  let policy ← readString j "policy"
  let source ← readString j "policy_source"
  let channel ← readString j "channel"
  let checkIntervalH ← readInt j "check_interval_h" CHECK_INTERVAL_DEFAULT_H CHECK_INTERVAL_MIN_H
    CHECK_INTERVAL_MAX_H
  let rollbackDeadlineS ← readInt j "rollback_deadline_s" ROLLBACK_DEADLINE_DEFAULT_S
    ROLLBACK_DEADLINE_MIN_S ROLLBACK_DEADLINE_MAX_S
  return { policy := (policy.bind UpdatePolicy.ofString).getD .automatic
           source := (source.map PolicySource.ofString).getD .defaulted
           channel := (channel.filter (validChannel ·)).getD "latest"
           checkIntervalH, rollbackDeadlineS }

/-- `update_settings::to_json`: the section as it is written to the configuration file, with all
five of its keys. -/
def toJson (s : UpdateSettings) : Json :=
  .obj [("policy", .str s.policy.toString), ("policy_source", .str s.source.toString),
    ("channel", .str s.channel), ("check_interval_h", .int s.checkIntervalH.toInt),
    ("rollback_deadline_s", .int s.rollbackDeadlineS.toInt)]

end UpdateSettings

/-- `effective_policy`: the cloud can always make a device managed, and automatic only when the
local policy is no explicit opt-out. -/
def effectivePolicy (settings : UpdateSettings) (remote : Option UpdatePolicy) : UpdatePolicy :=
  match remote with
  | none => settings.policy
  | some .managed => .managed
  | some .automatic =>
    if settings.policy = .managed ∧ settings.source = .localExplicit then .managed else .automatic

/-- The user of the device opted out of automatic updates: the policy `managed` was set locally and
explicitly. -/
def UpdateSettings.OptedOut (settings : UpdateSettings) : Prop :=
  settings.policy = .managed ∧ settings.source = .localExplicit

/-- A section with these two entries opts the device out, whatever else is in it. -/
theorem UpdateSettings.optedOut_fromJson {j : Json}
    (hpolicy : j.find "policy" = some (.str "managed"))
    (hsource : j.find "policy_source" = some (.str "local_explicit")) : (fromJson j).OptedOut := by
  simp [OptedOut, fromJson, stringAt, hpolicy, hsource, UpdatePolicy.ofString,
    PolicySource.ofString]

/-- The numbers of the settings are in their range. -/
theorem clampInt_mem (j : Json) (key : String) {dflt lo hi : Int32} (hlo : lo ≤ dflt)
    (hhi : dflt ≤ hi) : lo ≤ clampInt j key dflt lo hi ∧ clampInt j key dflt lo hi ≤ hi := by
  unfold clampInt
  split
  · simp only [Int32.le_iff_toInt_le, Int32.lt_iff_toInt_lt] at *
    split
    · omega
    · split <;> omega
  · exact ⟨hlo, hhi⟩

/-- Whatever the section says, a trial is given some time. -/
theorem UpdateSettings.rollbackDeadlineS_pos (j : Json) : 0 < (fromJson j).rollbackDeadlineS := by
  have hmem : ROLLBACK_DEADLINE_MIN_S ≤ (fromJson j).rollbackDeadlineS :=
    (clampInt_mem j "rollback_deadline_s" (by decide) (by decide)).1
  exact Int32.lt_of_lt_of_le (by decide) hmem

/-- No override undoes an opt-out: the effective policy is `managed`, whatever the server says. -/
theorem effectivePolicy_of_optedOut {settings : UpdateSettings} (h : settings.OptedOut)
    (remote : Option UpdatePolicy) : effectivePolicy settings remote = .managed := by
  cases remote with
  | none => exact h.1
  | some policy =>
    cases policy with
    | managed => rfl
    | automatic => exact if_pos h

/-- A managed override is in force whatever the local settings. -/
@[simp] theorem effectivePolicy_managed (settings : UpdateSettings) :
    effectivePolicy settings (some .managed) = .managed := rfl

end ThinrAgent
