import ThinrAgent.Config.Credentials

/-!
# `ThinrAgent.Utils.DeviceIdGenerator`: the identifier a device proposes for itself

`utils/device_id_generator.cpp`, as it is built for Linux. A text is a list of characters, one for
each byte, and `isalnum` and `tolower` are those of the C locale. The host name, the network
interfaces and the clock are arguments.
-/

set_option autoImplicit false

namespace ThinrAgent

namespace DeviceIdGenerator

/-- An entry of `getifaddrs`: `sll_addr` has the `sll_halen` bytes of the address. -/
structure NetInterface where
  name : List Char
  isPacket : Bool
  addr : List UInt8

/-- The beginnings of the names of interfaces that are no hardware. -/
def virtualPrefixes : List String :=
  ["lo", "vir", "docker", "veth", "br-", "tun", "tap", "vmnet", "utun", "awdl", "llw", "anpi",
    "bridge", "ap", "gif", "stf", "XHC"]

/-- An interface is no hardware when its name begins so. -/
def isVirtualInterface (name : List Char) : Bool :=
  virtualPrefixes.any fun text => text.toList.isPrefixOf name

/-- A packet interface that is not virtual, with six bytes that are not all zero. -/
def NetInterface.isHardware (i : NetInterface) : Bool :=
  i.isPacket && !isVirtualInterface i.name && i.addr.length = 6 && i.addr.any (· ≠ 0)

/-- The first of them. There is none when `getifaddrs` fails. -/
def firstHardware (interfaces : Option (List NetInterface)) : Option NetInterface :=
  interfaces.bind fun interfaces => interfaces.find? NetInterface.isHardware

/-- The format `%02x:%02x:%02x:%02x:%02x:%02x`: the bytes of an address as pairs of digits with
colons between them. -/
def macText (addr : List UInt8) : List Char := [':'].intercalate (addr.map hexPair)

/-- `get_first_hardware_mac`: the address in its usual notation, or nothing. -/
def getFirstHardwareMac (interfaces : Option (List NetInterface)) : List Char :=
  match firstHardware interfaces with
  | some i => macText i.addr
  | none => []

/-- `format_mac_compact`: the digits of an address, in lower case. -/
def formatMacCompact (mac : List Char) : List Char :=
  (mac.filter fun c => c ≠ ':' && c ≠ '-').map Char.toLower

/-- The first word of the host name. There is none when `gethostname` fails. -/
def getHostnamePrefix (hostname : Option (List Char)) : List Char :=
  match hostname with
  | none => []
  | some host =>
    let host := (host.takeWhile fun c => !(['-', '_', '.', ' ', '\t'].contains c)).map Char.toLower
    if host.isEmpty || 32 < host.length then "device".toList else host

/-- `std::to_string` of the time, in decimal and with a sign where it is negative. -/
def timeText (now : Int64) : List Char :=
  if now.toInt < 0 then '-' :: Nat.toDigits 10 now.toInt.natAbs
  else Nat.toDigits 10 now.toInt.natAbs

/-- At most 32 characters, with six of the address. -/
def joinId (host mac : List Char) : List Char :=
  let deviceId := host ++ '_' :: mac
  if 32 < deviceId.length then
    let macChars := min mac.length 6
    host.take (32 - macChars - 1) ++ '_' :: mac.drop (mac.length - macChars)
  else deviceId

/-- The characters of an identifier that the clean-up lets through: letters, digits, `_` and `-`. -/
def isIdChar (c : Char) : Bool := c.isAlphanum || c = '_' || c = '-'

/-- `generate`: the host name and the address, or the time in the place of an address. Characters
that an identifier cannot have become underscores. -/
def generate (hostname : Option (List Char)) (interfaces : Option (List NetInterface))
    (now : Int64) : List Char :=
  let host := getHostnamePrefix hostname
  let mac := getFirstHardwareMac interfaces
  if host.isEmpty && mac.isEmpty then "thinr_".toList ++ timeText now
  else
    let host := if host.isEmpty then "device".toList else host
    let mac := if mac.isEmpty then timeText now else formatMacCompact mac
    (joinId host mac).map fun c => if isIdChar c then c else '_'

end DeviceIdGenerator

end ThinrAgent
