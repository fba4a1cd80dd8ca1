import ThinrAgent.Std.Words

/-!
# `ThinrAgent.Installer.RcConf`: the services of `rc.conf`

`sysv_service_installer::modify_rc_conf` of `installer/init_systems/sysv_service_installer.cpp`, on
the text of `/etc/rc.d/rc.conf`. It reads and writes the file line by line, and edits the lines
`cfg_services="…"`. The file operations are left out: the copy and the write succeed.
-/

set_option autoImplicit false

namespace ThinrAgent

open Text

/-- `std::isspace`: the blanks of the C locale, which separate the words of a value. -/
def isSpaceChar (c : Char) : Bool :=
  c = ' ' || c = '\t' || c = '\n' || c = '\x0b' || c = '\x0c' || c = '\r'

/-- The beginning of a line that lists services. -/
def cfgServices : List Char := "cfg_services=".toList

/-- What stands between the first and the last quote. -/
def betweenQuotes (line : List Char) : Option (List Char) :=
  let behind := (line.dropWhile (· ≠ '"')).drop 1
  if '"' ∈ behind then some ((behind.rdropWhile (· ≠ '"')).dropLast) else none

/-- The services of a line, when it is a line of services. -/
def serviceList (line : List Char) : Option (List Char) :=
  if cfgServices <+: line then betweenQuotes line else none

/-- The line `cfg_services` that is written, with the services between quotes. -/
def serviceLine (services : List Char) : List Char := cfgServices ++ '"' :: (services ++ ['"'])

/-- `services.erase(start, end - start)`, for a name that stands at `servicePos`. -/
def eraseService (serviceName services : List Char) (servicePos : Nat) : List Char :=
  let end_ := servicePos + serviceName.length
  -- One blank on either side goes with the name.
  let start := if 0 < servicePos ∧ services[servicePos - 1]? = some ' ' then servicePos - 1
    else servicePos
  let end_ := if services[end_]? = some ' ' then end_ + 1 else end_
  services.take start ++ services.drop end_

/-- The body of the loop: the line that is written, and whether it was modified. -/
def editLine (serviceName : List Char) (enable : Bool) (line : List Char) : List Char × Bool :=
  match serviceList line with
  | none => (line, false)
  | some services =>
    match enable, findText serviceName services with
    | true, none => (serviceLine (services ++ ' ' :: serviceName), true)
    | false, some servicePos => (serviceLine (eraseService serviceName services servicePos), true)
    | _, _ => (line, false)

/-- The file `rc.conf`, with the backup that is made before a change. -/
structure RcConf where
  text : List Char
  backup : Option (List Char) := none
  deriving DecidableEq

/-- `modify_rc_conf`: the files, and the result. Where no line changes, nothing is written and the
result is false. -/
def modifyRcConf (serviceName : List Char) (enable : Bool) (conf : RcConf) : RcConf × Bool :=
  let edits := (getlines '\n' conf.text).map (editLine serviceName enable)
  if edits.any Prod.snd then
    ({ text := unlines '\n' (edits.map Prod.fst), backup := some conf.text }, true)
  else (conf, false)

end ThinrAgent
