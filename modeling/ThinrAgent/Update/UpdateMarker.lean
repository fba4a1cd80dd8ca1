import ThinrAgent.Std.JsonText

/-!
# `ThinrAgent.Update.UpdateMarker`: the two records of the watchdog

`UpdateMarker` is the content of `update.state`, and `RevertedInfo` the content of
`update.reverted` (`update/update_marker.{hpp,cpp}`). The other modules keep a file's text as the
JSON value the library parses from it, so there `toJson` stands for `dump` and `fromJson` for
`parse`. The order of the entries does not matter (`fromJson_perm`). The machine integers of the
source keep their widths.

`fromJson_toJson` is the round trip of a marker through the disk. `RevertedInfo` needs a
nonempty version for its own.
-/

set_option autoImplicit false

namespace ThinrAgent

/-- The name of the marker's file inside the state directory, which the updater and the watchdog of
the next start have to agree on. -/
def UPDATE_STATE_FILE : String := "update.state"

/-- The name of the record of the last rollback. It lies beside the marker and outlives it: a marker
is removed when its report is delivered, this record stays until another rollback replaces it. -/
def UPDATE_REVERTED_FILE : String := "update.reverted"

/-- How far an update has come, as the marker on the disk says it. There is no phase for a healthy
update: its marker is deleted. -/
inductive UpdatePhase where
  | none        -- no update in flight
  | pending     -- binary swapped, waiting for the new one to prove healthy
  | rolledBack  -- reverted to the previous binary, report not yet delivered
  deriving DecidableEq, Repr

namespace UpdatePhase

/-- The text of a phase in the file. The three texts are different, which `ofString_toString` relies
on. -/
def toString : UpdatePhase → String
  | pending => "pending"
  | rolledBack => "rolled_back"
  | none => "none"

/-- `phase_from_string`: the phase that a text names. A text that names none makes the whole file no
marker, so it is not turned into a phase of its own. -/
def ofString (text : String) : Option UpdatePhase :=
  if text = "pending" then some pending
  else if text = "rolled_back" then some rolledBack
  else if text = "none" then some none
  else Option.none

/-- Every phase is read back from its own text. It feeds the round trip of a marker, where the phase
is the one entry that decides whether there is a marker at all. -/
@[simp] theorem ofString_toString (phase : UpdatePhase) : ofString phase.toString = some phase := by
  cases phase <;> decide

end UpdatePhase

/-- The content of `update.state`, with the defaults of the source. The counters and times have the
widths of the source, so that a value that does not fit wraps here as it does there. -/
structure UpdateMarker where
  phase : UpdatePhase := .none
  fromVersion : String := ""  -- `from`
  toVersion : String := ""    -- `to`
  prevBinary : String := ""
  startedAt : Int64 := 0
  attempts : Int32 := 0
  deadlineS : Int32 := 90
  reportAttempts : Int32 := 0
  deriving DecidableEq

namespace UpdateMarker

/-- `update_marker::to_json`: the entries under the keys that `from_json` looks up. All of them are
written, also those that have their default. -/
def toJson (m : UpdateMarker) : Json :=
  .obj [("phase", .str m.phase.toString),
    ("from", .str m.fromVersion),
    ("to", .str m.toVersion),
    ("prev_binary", .str m.prevBinary),
    ("started_at", .int m.startedAt.toInt),
    ("attempts", .int m.attempts.toInt),
    ("deadline_s", .int m.deadlineS.toInt),
    ("report_attempts", .int m.reportAttempts.toInt)]

/-- `update_marker::from_json`: no marker without a valid phase. The other fields fall back to their
defaults, and an entry of an incompatible type throws. -/
def fromJson (j : Json) : Except JsonError (Option UpdateMarker) :=
  if j.isObject then
    match j.find "phase" with
    | some (.str text) =>
      match UpdatePhase.ofString text with
      | some phase => do
        let fromVersion ← j.value Json.getString "from" ""
        let toVersion ← j.value Json.getString "to" ""
        let prevBinary ← j.value Json.getString "prev_binary" ""
        let startedAt ← j.value Json.getInt64 "started_at" 0
        let attempts ← j.value Json.getInt32 "attempts" 0
        let deadlineS ← j.value Json.getInt32 "deadline_s" 90
        let reportAttempts ← j.value Json.getInt32 "report_attempts" 0
        return some { phase, fromVersion, toVersion, prevBinary, startedAt, attempts,
                      deadlineS, reportAttempts }
      | none => .ok none
    | _ => .ok none
  else .ok none

/-- A marker that is written is read back as it was, in every field and for all values of the
counters. The watchdog of the next start therefore sees what the updater meant. -/
@[simp] theorem fromJson_toJson (m : UpdateMarker) : fromJson m.toJson = .ok (some m) := by
  simp only [fromJson, toJson, Json.isObject, Json.find, Json.value, List.lookup_cons,
    String.reduceBEq, if_true, UpdatePhase.ofString_toString, Json.getString, Json.getInt64,
    Json.getInt32, Int32.ofInt_toInt, Int64.ofInt_toInt]
  rfl

/-- The order of the entries does not matter, as long as no key comes twice. The library sorts the
keys of an object, and the model does not, so this is what makes the two the same. -/
theorem fromJson_perm {kvs kvs' : List (String × Json)} (hperm : kvs'.Perm kvs)
    (hnodup : (kvs.map Prod.fst).Nodup) : fromJson (.obj kvs') = fromJson (.obj kvs) := by
  have hfind : ∀ key, (Json.obj kvs').find key = (Json.obj kvs).find key :=
    Json.lookup_perm hperm hnodup
  simp only [fromJson, Json.value, Json.isObject, hfind]

/-- `update_marker::dump`, the text that is written to the disk. How the library prints a value is
the parameter `lib`. -/
def dump (lib : JsonText) (m : UpdateMarker) : String := lib.dump m.toJson

/-- `update_marker::parse`: a text that the library discards holds no marker. It does not throw
then, but an entry of a wrong type inside a valid text does. -/
def parse (lib : JsonText) (text : String) : Except JsonError (Option UpdateMarker) :=
  match lib.parse text with
  | some j => fromJson j
  | none => .ok none

end UpdateMarker

/-- The content of `update.reverted`: which version was taken back and when, the version that was
restored, and the reason. The poller skips this version, for one of the reasons until a cooldown is
over and for the others for good. -/
structure RevertedInfo where
  version : String := ""
  restored : String := ""
  reason : String := ""
  at_ : Int64 := 0
  deriving DecidableEq

namespace RevertedInfo

/-- `reverted_info::to_json`, with the keys that `from_json` looks up. -/
def toJson (r : RevertedInfo) : Json :=
  .obj [("version", .str r.version),
    ("restored", .str r.restored),
    ("reason", .str r.reason),
    ("at", .int r.at_.toInt)]

/-- `reverted_info::from_json`: no record without a nonempty version. The other entries fall back to
defaults, and one of an incompatible type throws as it does for a marker. -/
def fromJson (j : Json) : Except JsonError (Option RevertedInfo) :=
  if j.isObject then
    match j.find "version" with
    | some (.str version) =>
      if version = "" then .ok none
      else do
        let restored ← j.value Json.getString "restored" ""
        let reason ← j.value Json.getString "reason" ""
        let at_ ← j.value Json.getInt64 "at" 0
        return some { version, restored, reason, at_ }
    | _ => .ok none
  else .ok none

/-- A record with a version is read back as it was. The version has to be nonempty, because a record
with an empty one reads as no record. -/
theorem fromJson_toJson (r : RevertedInfo) (h : r.version ≠ "") :
    fromJson r.toJson = .ok (some r) := by
  simp only [fromJson, toJson, Json.isObject, Json.find, Json.value, List.lookup_cons,
    String.reduceBEq, if_true, Json.getString, Json.getInt64, Int64.ofInt_toInt, if_neg h]
  rfl

/-- The order of the entries does not matter for a record either. The argument is the one for a
marker. -/
theorem fromJson_perm {kvs kvs' : List (String × Json)} (hperm : kvs'.Perm kvs)
    (hnodup : (kvs.map Prod.fst).Nodup) : fromJson (.obj kvs') = fromJson (.obj kvs) := by
  have hfind : ∀ key, (Json.obj kvs').find key = (Json.obj kvs).find key :=
    Json.lookup_perm hperm hnodup
  simp only [fromJson, Json.value, Json.isObject, hfind]

/-- `reverted_info::dump`, the text of a record on the disk. -/
def dump (lib : JsonText) (r : RevertedInfo) : String := lib.dump r.toJson

/-- `reverted_info::parse`: a text that the library discards holds no record, so no version is
skipped on account of it. -/
def parse (lib : JsonText) (text : String) : Except JsonError (Option RevertedInfo) :=
  match lib.parse text with
  | some j => fromJson j
  | none => .ok none

end RevertedInfo

end ThinrAgent
