import Mathlib.Data.Rat.Defs
import ThinrAgent.Std.Counters

/-!
# `ThinrAgent.Extensions.Monitoring`: usages and rates

The processor usage and the network rates of `extensions/monitoring.cpp`, on Linux. `/proc/stat` is
kept as the eight numbers that are read from it, and `/proc/net/dev` as its lines with their
numbers. The instants of the steady clock are nanoseconds. A `double` is an exact fraction, and the
counters have the 64 bits of the source.
-/

set_option autoImplicit false

namespace ThinrAgent

/-- `cpu_sample`: the counters in the first line of `/proc/stat`, in jiffies since the boot. -/
structure CpuSample where
  user : UInt64 := 0
  nice : UInt64 := 0
  system : UInt64 := 0
  idle : UInt64 := 0
  iowait : UInt64 := 0
  irq : UInt64 := 0
  softirq : UInt64 := 0
  steal : UInt64 := 0
  deriving DecidableEq, Repr

namespace CpuSample

/-- The jiffies of a sample, added up in 64 bits. -/
def total (s : CpuSample) : UInt64 :=
  s.user + s.nice + s.system + s.idle + s.iowait + s.irq + s.softirq + s.steal

/-- The jiffies in which the processor was busy. Waiting for a disk counts as idle. -/
def active (s : CpuSample) : UInt64 := s.total - s.idle - s.iowait

end CpuSample

/-- A line of `/proc/net/dev`: the name in front of the colon and the numbers behind it. -/
structure InterfaceLine where
  iface : String
  columns : List UInt64
  deriving DecidableEq, Repr

namespace InterfaceLine

/-- The bytes an interface has received, its first column. -/
def rxBytes (l : InterfaceLine) : UInt64 := l.columns.getD 0 0

/-- The bytes an interface has sent, its ninth column. -/
def txBytes (l : InterfaceLine) : UInt64 := l.columns.getD 8 0

end InterfaceLine

/-- The lines of `/proc/net/dev` behind its header, one for each interface. -/
structure InterfaceTable where
  lines : List InterfaceLine
  nodup : (lines.map InterfaceLine.iface).Nodup

/-- `network_sample`: the bytes of all interfaces together, with the time of the reading. It is not
valid when the file could not be read. -/
structure NetworkSample where
  rxBytes : UInt64 := 0
  txBytes : UInt64 := 0
  valid : Bool := false
  timestamp : Int
  deriving DecidableEq, Repr

/-- What one collection reads: the counters of the processor and of the interfaces, each with the
clock at its reading. -/
structure MonitoringReadings where
  /-- The clock in `collect_cpu`. -/
  now : Int
  cpu : CpuSample
  /-- The clock in `read_network_sample`. -/
  netTime : Int
  /-- `none` where `/proc/net/dev` cannot be opened. -/
  net : Option InterfaceTable

/-- `read_network_sample`: the sums over the interfaces of the file, in 64 bits. The loopback
interface `lo` does not count. -/
def readNetworkSample (r : MonitoringReadings) : NetworkSample :=
  match r.net with
  | none => { timestamp := r.netTime }
  | some table =>
    table.lines.foldl
      (fun s line =>
        if line.iface = "lo" then s
        else { s with rxBytes := s.rxBytes + line.rxBytes, txBytes := s.txBytes + line.txBytes })
      { valid := true, timestamp := r.netTime }

/-- The section `network` of a report: the rates since the last collection, and the totals of the
counters. -/
structure NetworkReport where
  rxRate : Rat
  txRate : Rat
  rxBytes : UInt64
  txBytes : UInt64

/-- The processor usage and the network section of a report. -/
structure MonitoringReport where
  cpuUsage : Option Rat
  network : Option NetworkReport

/-- The samples before, which a collection subtracts from its own, and the usage of the last one. -/
structure Monitoring where
  prevCpu : CpuSample
  prevCpuTs : Int
  cachedCpuUsage : Rat := 0
  cpuAvailable : Bool
  prevNet : NetworkSample

namespace Monitoring

/-- `MIN_WINDOW`: two collections within fifteen seconds share one usage of the processor. In
nanoseconds. -/
def minWindow : Int := 15 * 10 ^ 9

/-- The constructor: the first samples. Without jiffies in the first one the platform has no
counters, and the usage is not collected. -/
def init (r : MonitoringReadings) : Monitoring where
  prevCpu := r.cpu
  prevCpuTs := r.now
  cpuAvailable := 0 < r.cpu.total
  prevNet := readNetworkSample r

/-- `collect_cpu`: the busy share of the jiffies since the sample before, in percent. Two
collections in one window give the same usage. -/
def collectCpu (m : Monitoring) (r : MonitoringReadings) : Rat × Monitoring :=
  if r.now - m.prevCpuTs < minWindow then (m.cachedCpuUsage, m)
  else
    let totalDelta := r.cpu.total - m.prevCpu.total
    let activeDelta := r.cpu.active - m.prevCpu.active
    let m := { m with prevCpu := r.cpu, prevCpuTs := r.now }
    if totalDelta = 0 then (m.cachedCpuUsage, m)
    else
      let usage := (activeDelta.toNat : Rat) / totalDelta.toNat * 100
      (usage, { m with cachedCpuUsage := usage })

/-- The seconds since the network sample that is kept. -/
def elapsed (m : Monitoring) (r : MonitoringReadings) : Rat :=
  (r.netTime - m.prevNet.timestamp : Int) / 10 ^ 9

/-- `collect_network`: the bytes since the sample before over the time since then, and the totals.
Without a time between the samples the rates are zero. -/
def collectNetwork (m : Monitoring) (r : MonitoringReadings) : Option NetworkReport × Monitoring :=
  let cur := readNetworkSample r
  if !cur.valid then (none, m)
  else
    let elapsed := m.elapsed r
    let report : NetworkReport :=
      if 0 < elapsed then
        { rxRate := (cur.rxBytes - m.prevNet.rxBytes).toNat / elapsed
          txRate := (cur.txBytes - m.prevNet.txBytes).toNat / elapsed
          rxBytes := cur.rxBytes
          txBytes := cur.txBytes }
      else { rxRate := 0, txRate := 0, rxBytes := cur.rxBytes, txBytes := cur.txBytes }
    (some report, { m with prevNet := cur })

/-- `collect`, as far as it reports usages and rates: the processor first, where its counters could
be read at the start, and then the network. -/
def collect (m : Monitoring) (r : MonitoringReadings) : MonitoringReport × Monitoring :=
  let cpu := m.collectCpu r
  let network := (if m.cpuAvailable then cpu.2 else m).collectNetwork r
  ({ cpuUsage := if m.cpuAvailable then some cpu.1 else none, network := network.1 }, network.2)

end Monitoring

end ThinrAgent
