import ThinrAgent.Auth.DeviceFlow

/-!
# `ThinrAgent.Auth.AlarmRules`: the default alarm rules of a user

`list_alarm_rules`, `create_alarm_rule`, `delete_alarm_rule`, `default_alarm_rules` and
`ensure_default_alarms` of `auth/auth_manager.cpp`, with the rules the server holds. A request is
`make_http_request_with_fallback`: it has an answer, and the server may have carried it out whatever
the answer is.
-/

set_option autoImplicit false

namespace ThinrAgent

/-- The arguments of `make_http_request_with_fallback`. The payload `null` is no payload. -/
structure JsonRequest where
  url : String
  method : String
  payload : Json := .null
  authorization : String

/-- A rule with the name it is listed under. -/
structure AlarmRule where
  id : String
  definition : Json
  named : definition.value Json.getString "rule" "" = .ok id

/-- The rules of the user, as the server has listed them. -/
structure AlarmRuleListResult where
  success : Bool
  statusCode : Int
  rules : Json

/-- Whether a rule has been created, with the body of the response when it has not. -/
structure AlarmRuleCreateResult where
  success : Bool
  statusCode : Int
  errorDetail : String

/-- The account whose alarm rules are asked for, created and deleted, with the access token that
every request carries. -/
structure AlarmAccount where
  host : String
  username : String
  accessToken : String

namespace AlarmAccount

/-- Where the rules of the account are listed and created. -/
def rulesUrl (account : AlarmAccount) : String :=
  ensureHttps account.host ++ "/v1/users/" ++ account.username ++ "/alarms/rules"

/-- The request that lists the alarm rules of the account. -/
def listRequest (account : AlarmAccount) : JsonRequest where
  url := account.rulesUrl
  method := "GET"
  authorization := "Bearer " ++ account.accessToken

/-- The request that creates a rule with this definition. -/
def createRequest (account : AlarmAccount) (ruleData : Json) : JsonRequest where
  url := account.rulesUrl
  method := "POST"
  payload := ruleData
  authorization := "Bearer " ++ account.accessToken

/-- The request that deletes the rule of this name. -/
def deleteRequest (account : AlarmAccount) (ruleId : String) : JsonRequest where
  url := account.rulesUrl ++ "/" ++ ruleId
  method := "DELETE"
  authorization := "Bearer " ++ account.accessToken

end AlarmAccount

section Requests
variable (lib : JsonText) (answer : JsonRequest → HttpAnswer) (account : AlarmAccount)

/-- `list_alarm_rules`. A listing that is no JSON counts as a failure without a status, since the
exception of the parser is caught. -/
def listAlarmRules : AlarmRuleListResult :=
  match answer account.listRequest with
  | .error _ => { success := false, statusCode := 0, rules := .null }
  | .ok response =>
    if !response.success || response.statusCode ≠ 200 then
      { success := false, statusCode := response.statusCode, rules := .null }
    else
      match lib.parse response.body with
      | some rules => { success := true, statusCode := response.statusCode, rules }
      | none => { success := false, statusCode := 0, rules := .null }

/-- `create_alarm_rule`. An exception of the request becomes the text of the failure. -/
def createAlarmRule (ruleData : Json) : AlarmRuleCreateResult :=
  match answer (account.createRequest ruleData) with
  | .error e => { success := false, statusCode := 0, errorDetail := e }
  | .ok response =>
    if !response.success || (response.statusCode ≠ 200 && response.statusCode ≠ 201) then
      { success := false, statusCode := response.statusCode, errorDetail := response.body }
    else { success := true, statusCode := response.statusCode, errorDetail := "" }

/-- `delete_alarm_rule`. A rule that is not there counts as deleted, by the status 404. -/
def deleteAlarmRule (ruleId : String) : Bool :=
  match answer (account.deleteRequest ruleId) with
  | .error _ => false
  | .ok response =>
    response.success &&
      (response.statusCode = 200 || response.statusCode = 204 || response.statusCode = 404)

end Requests

section Defaults

/-- One entry of `conditions`: the value of a field compared with a fixed one, joined to the other
entries by `and`. -/
def valueCheck (field comparison value : String) : Json :=
  .obj [("type", .str "value_check"), ("operator", .str "and"), ("field", .str field),
    ("comparison", .str comparison), ("value", .str value)]

/-- A confirmation without a delay, for a rule that is to fire or to end at once. -/
def immediately : Json := .obj [("mode", .str "immediate")]

/-- A time in minutes, as the server writes it. -/
def minutes (value : Int) : Json := .obj [("magnitude", .str "minute"), ("value", .int value)]

/-- The source of a rule in the bucket `monitoring`. -/
def monitoringSource (mapping : String) (aggregation : Json) : Json :=
  .obj [("name", .str "monitoring"), ("source", .str "bucket"),
    ("bucket", .obj [("id", .str "monitoring"), ("backend", .str "mongodb"),
      ("group_by", .arr [.str "device"]), ("mapping", .arr [.str mapping]),
      ("aggregation", aggregation),
      ("tags", .obj [("device", .arr []), ("group", .arr [])])])]

/-- A default rule, with what all of them have in common. The name it is listed under stands in its
definition. -/
def alarmRule (rule name description : String) (conditions : List Json) (checkInterval : Int)
    (sources : List Json) (normalization : Json) (severity : Int) : AlarmRule where
  id := rule
  definition := .obj [("rule", .str rule), ("name", .str name), ("description", .str description),
    ("enabled", .bool true),
    ("config", .obj [
      ("activation", .obj [("conditions", .arr conditions), ("confirmation", immediately),
        ("notifications", .arr [])]),
      ("check_interval", minutes checkInterval),
      ("data", .obj [("sources", .arr sources)]),
      ("normalization", .obj [("conditions", .arr []), ("confirmation", normalization),
        ("notifications", .arr [])]),
      ("reminder", .obj [("type", .str "none"), ("notifications", .arr [])]),
      ("severity", .int severity)])]
  named := by simp [Json.value, Json.isObject, Json.find, Json.getString]

/-- A rule about the mean of a metric over five minutes. -/
def metricRule (rule name description metric value : String) (guards : List Json)
    (checkInterval : Int) : AlarmRule :=
  alarmRule rule name description
    (guards ++ [valueCheck ("monitoring." ++ metric) "above" value]) checkInterval
    [monitoringSource metric (.obj [("period", .str "5m"), ("type", .str "mean")])] immediately 2

/-- More than 85 % of the processor over five minutes. -/
def highCpu : AlarmRule :=
  metricRule "high_cpu" "High CPU" "CPU usage above 85% averaged over 5 minutes"
    "cpu.usage" "85" [] 1

/-- More than 80 % of the memory over five minutes. -/
def highMemory : AlarmRule :=
  metricRule "high_memory" "High Memory" "Memory usage above 80% averaged over 5 minutes"
    "memory.usage" "80" [] 1

/-- More than 75 % of the root file system. It is checked every half hour only. -/
def highDisk : AlarmRule :=
  metricRule "high_disk" "High Disk Usage" "Root filesystem usage above 75% averaged over 5 minutes"
    "disk.root.usage" "75" [] 30

/-- Swap usage above half over five minutes. The second condition makes it fire only on devices with
swap configured. -/
def highSwap : AlarmRule :=
  metricRule "high_swap" "High Swap Usage"
    "Swap usage above 50% averaged over 5 minutes (devices with swap configured)"
    "memory.swap.usage" "50" [valueCheck "monitoring.memory.swap.usage" "present" "0"] 1

/-- A processor temperature above 80 °C over five minutes. The second condition makes it fire only
on devices that report one. -/
def highCpuTemperature : AlarmRule :=
  metricRule "high_cpu_temperature" "High CPU Temperature"
    "CPU temperature above 80°C averaged over 5 minutes (devices with thermal sensor)"
    "cpu.temperature" "80" [valueCheck "monitoring.cpu.temperature" "present" "0"] 1

/-- An enabled device without any data. It comes to an end after five minutes with data, so its
normalization is not immediate. -/
def missingBucketData : AlarmRule :=
  alarmRule "missing_bucket_data" "Missing Monitoring Data"
    "Enabled devices not reporting monitoring data"
    [valueCheck "device.enabled" "equal" "1", valueCheck "monitoring.cpu.usage" "absent" "0"] 1
    [.obj [("name", .str "device"), ("source", .str "device_status"),
        ("device_status", .obj [("asset_group", .arr []), ("asset_type", .arr []),
          ("device", .arr []), ("product", .arr []), ("project", .arr [])])],
      monitoringSource "cpu.usage" (.obj [("period", .str "10m")])]
    (.obj [("mode", .str "timespan"), ("timespan", minutes 5)]) 3

/-- `default_alarm_rules`, in the order in which they are created. -/
def defaultAlarmRules : List AlarmRule :=
  [highCpu, highMemory, highDisk, highSwap, highCpuTemperature, missingBucketData]

end Defaults

/-- `EnsureAlarmsResult`: whether the rules could be listed, and what has become of the default
ones. Without a listing the counters stay zero. -/
structure EnsureAlarmsResult where
  listed : Bool := false
  created : Nat := 0
  alreadyPresent : Nat := 0
  failed : Nat := 0
  deriving DecidableEq, Repr

/-- What happens to the requests of a call: the answers, and those the server carries out. -/
structure AlarmRequests where
  answer : JsonRequest → HttpAnswer
  executed : JsonRequest → Bool

section Ensure
variable (lib : JsonText) (requests : AlarmRequests) (account : AlarmAccount)

/-- The server's rules after a deletion: the rule is gone where the server has executed the request,
whatever the answer says. -/
def AlarmRequests.delete (ruleId : String) (rules : List AlarmRule) : List AlarmRule :=
  if requests.executed (account.deleteRequest ruleId) then rules.filter fun r => r.id ≠ ruleId
  else rules

/-- The server's rules after a creation: the rule takes the place of one with its identifier where
the server has executed the request, whatever the answer says. -/
def AlarmRequests.create (ruleDef : AlarmRule) (rules : List AlarmRule) : List AlarmRule :=
  if requests.executed (account.createRequest ruleDef.definition) then
    rules.filter (fun r => r.id ≠ ruleDef.id) ++ [ruleDef]
  else rules

/-- The identifiers in a listing. The set of the source is a list here. -/
def existingIds : Json → Except JsonError (List String)
  | .arr rules => do
    let ids ← rules.mapM fun r => r.value Json.getString "rule" ""
    return ids.filter fun id => id ≠ ""
  | _ => .ok []

/-- The loop of `force`, with the server's rules. -/
def deleteDefaults : List AlarmRule → List String → List AlarmRule → List String × List AlarmRule
  | [], existing, rules => (existing, rules)
  | ruleDef :: rest, existing, rules =>
    if ruleDef.id = "" ∨ ruleDef.id ∉ existing then deleteDefaults rest existing rules
    else
      let existing' := if deleteAlarmRule requests.answer account ruleDef.id
        then existing.filter fun id => id ≠ ruleDef.id else existing
      deleteDefaults rest existing' (requests.delete account ruleDef.id rules)

/-- The loop that creates what is missing, with the server's rules. -/
def seedDefaults : List AlarmRule → List String → EnsureAlarmsResult → List AlarmRule →
    EnsureAlarmsResult × List AlarmRule
  | [], _, result, rules => (result, rules)
  | ruleDef :: rest, existing, result, rules =>
    if ruleDef.id = "" then seedDefaults rest existing result rules
    else if ruleDef.id ∈ existing then
      seedDefaults rest existing { result with alreadyPresent := result.alreadyPresent + 1 } rules
    else
      let created := createAlarmRule requests.answer account ruleDef.definition
      let result' := if created.success then { result with created := result.created + 1 }
        else { result with failed := result.failed + 1 }
      seedDefaults rest existing result' (requests.create account ruleDef rules)

/-- `ensure_default_alarms`: the result, and the server's rules at the end. Without a listing
nothing is deleted or created. -/
def ensureDefaultAlarms (force : Bool) (rules : List AlarmRule) :
    Except JsonError (EnsureAlarmsResult × List AlarmRule) := do
  let listResult := listAlarmRules lib requests.answer account
  if !listResult.success then return ({}, rules)
  let existing ← existingIds listResult.rules
  let (existing, rules) := if force
    then deleteDefaults requests account defaultAlarmRules existing rules else (existing, rules)
  return seedDefaults requests account defaultAlarmRules existing { listed := true } rules

end Ensure

end ThinrAgent
