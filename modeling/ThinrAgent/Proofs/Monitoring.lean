import Mathlib.Data.List.Nodup
import Mathlib.Tactic.FieldSimp
import Mathlib.Tactic.Linarith
import Mathlib.Tactic.Positivity
import ThinrAgent.Extensions.Monitoring

/-!
# `ThinrAgent.Proofs.Monitoring`: do usages and rates stay in their bounds?

The sums of the counters have 64 bits, and so have their differences. A processor usage is computed
from increments, because every counter of `/proc/stat` stays. It is at most 100 unless the
increments of one window reach `2 ^ 64`. A rate is computed from the sums of two sets of interfaces.
When an interface vanishes, the sum loses its counter. The difference wraps around as soon as the
loss, modulo `2 ^ 64`, is more than what the other interfaces have gained (`monitoring_iff`).
-/

set_option autoImplicit false

namespace ThinrAgent

/-- In a list without a repeated key, a search for the key of an entry finds the entry. The tables
of interfaces are such lists. -/
theorem find?_of_nodup_key {α β : Type} [DecidableEq β] {key : α → β} {l : List α}
    (h : (l.map key).Nodup) {x : α} (hx : x ∈ l) : l.find? (fun y => key y = key x) = some x := by
  induction l with
  | nil => cases hx
  | cons y l ih =>
    rw [List.map_cons, List.nodup_cons] at h
    rcases List.mem_cons.mp hx with rfl | hx
    · rw [List.find?_cons_of_pos (by simp)]
    · have hne : key y ≠ key x := fun heq => h.1 (heq ▸ List.mem_map_of_mem hx)
      rw [List.find?_cons_of_neg (by simpa using hne), ih h.2 hx]

section Cpu

namespace CpuSample

/-- The time in which the processor worked, by the counters of one reading. -/
def busy (s : CpuSample) : Nat :=
  s.user.toNat + s.nice.toNat + s.system.toNat + s.irq.toNat + s.softirq.toNat + s.steal.toNat

/-- The time in which the processor waited, idle or for input and output. -/
def waiting (s : CpuSample) : Nat := s.idle.toNat + s.iowait.toNat

/-- No counter decreases from the first sample to the second: what `/proc/stat` promises between two
readings without a wrap or a restart. -/
def Grows (s t : CpuSample) : Prop :=
  ∀ counter ∈ [user, nice, system, idle, iowait, irq, softirq, steal], counter s ≤ counter t

instance (s t : CpuSample) : Decidable (s.Grows t) :=
  inferInstanceAs (Decidable
    (∀ counter ∈ [user, nice, system, idle, iowait, irq, softirq, steal], counter s ≤ counter t))

/-- The increments of the counters of work between two readings. -/
def activeIncrement (s t : CpuSample) : Nat := t.busy - s.busy

/-- The increments of all counters between two readings. -/
def totalIncrement (s t : CpuSample) : Nat := t.busy - s.busy + (t.waiting - s.waiting)

/-- Counters that only grow have grown over two steps when they have grown over each. -/
theorem Grows.trans {s t u : CpuSample} (h : s.Grows t) (h' : t.Grows u) : s.Grows u :=
  fun counter hc => UInt64.le_trans (h counter hc) (h' counter hc)

/-- A sample has grown into itself, as no counter decreases. -/
theorem Grows.refl (s : CpuSample) : s.Grows s := fun _ _ => UInt64.le_refl _

/-- Where every counter grows, so do the two sums that a usage is computed from. -/
theorem Grows.busy {s t : CpuSample} (h : s.Grows t) : s.busy ≤ t.busy ∧ s.waiting ≤ t.waiting := by
  simp only [Grows, List.mem_cons, List.not_mem_nil, or_false, forall_eq_or_imp, forall_eq,
    UInt64.le_iff_toNat_le] at h
  unfold CpuSample.busy CpuSample.waiting
  omega

/-- The total of a sample is the sum of all its counters, in 64 bits. The sum itself may need more,
so it is taken modulo `2 ^ 64`. -/
theorem total_eq (s : CpuSample) : s.total = UInt64.ofNat (s.busy + s.waiting) := by
  simp only [total, busy, waiting, UInt64.ofNat_add, UInt64.ofNat_toNat]
  grind

/-- The active part of a sample is the sum of its busy counters, in 64 bits. -/
theorem active_eq (s : CpuSample) : s.active = UInt64.ofNat s.busy := by
  rw [active, total_eq]
  simp only [busy, waiting, UInt64.ofNat_add, UInt64.ofNat_toNat]
  grind

/-- The difference of two numbers that are kept modulo `2 ^ 64`. -/
theorem ofNat_sub_ofNat {a b : Nat} (h : b ≤ a) :
    (UInt64.ofNat a - UInt64.ofNat b).toNat = (a - b) % 2 ^ 64 := by
  rw [← UInt64.toNat_ofNat', UInt64.toNat_inj, show a = a - b + b by omega, UInt64.ofNat_add,
    Nat.add_sub_cancel]
  grind

/-- The difference of two totals is the increment of the window, modulo `2 ^ 64`. The subtraction
wraps around just as the two sums do, so both wraps cancel. -/
theorem Grows.total_sub {s t : CpuSample} (h : s.Grows t) :
    (t.total - s.total).toNat = totalIncrement s t % 2 ^ 64 := by
  have hb := h.busy
  rw [total_eq, total_eq, ofNat_sub_ofNat (by omega), totalIncrement]
  congr 1
  omega

/-- The same for the active parts: their difference is the sum of the increments, up to a wrap. -/
theorem Grows.active_sub {s t : CpuSample} (h : s.Grows t) :
    (t.active - s.active).toNat = activeIncrement s t % 2 ^ 64 := by
  rw [active_eq, active_eq, ofNat_sub_ofNat h.busy.1, activeIncrement]

end CpuSample

end Cpu

section Network

namespace InterfaceTable

/-- The counters of one column, by interface and without those of the loopback. -/
def counters (table : InterfaceTable) (column : InterfaceLine → UInt64) : Counters String where
  present := ((table.lines.map InterfaceLine.iface).filter (· ≠ "lo")).toFinset
  value iface := ((table.lines.find? fun l => l.iface = iface).map fun l => (column l).toNat).getD 0

/-- The table without any interface, which a collector starts with. -/
def empty : InterfaceTable := ⟨[], List.nodup_nil⟩

variable (table : InterfaceTable) (column : InterfaceLine → UInt64)

/-- The sum of a column over the interfaces other than the loopback. It is the sum without a bound,
which the source keeps in 64 bits. -/
theorem total_counters : (table.counters column).total =
    ((table.lines.filter fun l => l.iface ≠ "lo").map fun l => (column l).toNat).sum := by
  have hnames : (table.lines.map InterfaceLine.iface).filter (· ≠ "lo") =
      (table.lines.filter fun l => l.iface ≠ "lo").map InterfaceLine.iface := by
    rw [List.filter_map]
    rfl
  have hnodup : ((table.lines.filter fun l => l.iface ≠ "lo").map InterfaceLine.iface).Nodup :=
    hnames ▸ table.nodup.filter _
  rw [Counters.total, counters, hnames, List.sum_toFinset _ hnodup, List.map_map]
  refine congrArg List.sum (List.map_congr_left fun l hl => ?_)
  have hfind := find?_of_nodup_key table.nodup (List.mem_of_mem_filter hl)
  simp only [Function.comp_apply, hfind, Option.map_some, Option.getD_some]

end InterfaceTable

/-- The loop over the lines adds up the two columns. -/
theorem foldl_lines (lines : List InterfaceLine) (s : NetworkSample) :
    lines.foldl
      (fun s line =>
        if line.iface = "lo" then s
        else
          { s with rxBytes := s.rxBytes + line.rxBytes, txBytes := s.txBytes + line.txBytes }) s =
      { s with
        rxBytes := s.rxBytes + UInt64.ofNat
          ((lines.filter fun l => l.iface ≠ "lo").map fun l => l.rxBytes.toNat).sum
        txBytes := s.txBytes + UInt64.ofNat
          ((lines.filter fun l => l.iface ≠ "lo").map fun l => l.txBytes.toNat).sum } := by
  induction lines generalizing s with
  | nil => simp
  | cons line lines ih =>
    rw [List.foldl_cons, ih]
    by_cases hlo : line.iface = "lo"
    · rw [if_pos hlo, List.filter_cons_of_neg (by simpa using hlo)]
    · rw [if_neg hlo, List.filter_cons_of_pos (by simpa using hlo)]
      simp only [List.map_cons, List.sum_cons, UInt64.ofNat_add, UInt64.ofNat_toNat,
        UInt64.add_assoc]

/-- What a network sample holds of a table. -/
theorem readNetworkSample_eq {r : MonitoringReadings} {table : InterfaceTable}
    (h : r.net = some table) : readNetworkSample r =
      { rxBytes := UInt64.ofNat (table.counters InterfaceLine.rxBytes).total
        txBytes := UInt64.ofNat (table.counters InterfaceLine.txBytes).total
        valid := true
        timestamp := r.netTime } := by
  unfold readNetworkSample
  rw [h, table.total_counters, table.total_counters]
  simp only [foldl_lines, UInt64.zero_add]

/-- The difference of two sums wraps around when more is lost than gained. -/
theorem sub_le_gained_iff {c d : Counters String} (h : c.Grows d) :
    (UInt64.ofNat d.total - UInt64.ofNat c.total).toNat ≤ Counters.gained c d ↔
      Counters.vanished c d % 2 ^ 64 ≤ Counters.gained c d := by
  have hsum := Counters.total_add_vanished h
  rw [← wrapped_le_iff (w := 2 ^ 64) (by omega)]
  have hsub : (UInt64.ofNat d.total - UInt64.ofNat c.total).toNat =
      (Counters.gained c d + (2 ^ 64 - Counters.vanished c d % 2 ^ 64)) % 2 ^ 64 := by
    rw [UInt64.toNat_sub, UInt64.toNat_ofNat', UInt64.toNat_ofNat']
    omega
  rw [hsub]

end Network

/-- A collection: the state before it, the table of the network sample that the state keeps, and
what is read. -/
structure Collection where
  before : Monitoring
  table : InterfaceTable
  readings : MonitoringReadings

namespace Collection

/-- What a collection reports, from the state before it and its readings. -/
def report (c : Collection) : MonitoringReport := (c.before.collect c.readings).1

/-- The time since the samples of the collection before. -/
def elapsed (c : Collection) : Rat := c.before.elapsed c.readings

/-- The increments of the interfaces of both samples, and the counters of the new ones. -/
def gained (c : Collection) (column : InterfaceLine → UInt64) : Nat :=
  match c.readings.net with
  | some table => Counters.gained (c.table.counters column) (table.counters column)
  | none => 0

/-- What the counters of the interfaces that are gone since the last table had counted. -/
def vanished (c : Collection) (column : InterfaceLine → UInt64) : Nat :=
  match c.readings.net with
  | some table => Counters.vanished (c.table.counters column) (table.counters column)
  | none => 0

/-- The usage is a percentage, and a rate counts no more than was added. -/
structure Right (c : Collection) : Prop where
  cpu : ∀ usage, c.report.cpuUsage = some usage → 0 ≤ usage ∧ usage ≤ 100
  rx : ∀ n, c.report.network = some n →
    0 ≤ n.rxRate * c.elapsed ∧ n.rxRate * c.elapsed ≤ c.gained InterfaceLine.rxBytes
  tx : ∀ n, c.report.network = some n →
    0 ≤ n.txRate * c.elapsed ∧ n.txRate * c.elapsed ≤ c.gained InterfaceLine.txBytes

/-- A new processor usage is computed from increments that do not wrap around, or only together,
and what has vanished, modulo `2 ^ 64`, is not more than was gained. -/
structure Bounded (c : Collection) : Prop where
  cpu : c.before.cpuAvailable = true →
    Monitoring.minWindow ≤ c.readings.now - c.before.prevCpuTs →
      CpuSample.totalIncrement c.before.prevCpu c.readings.cpu % 2 ^ 64 = 0 ∨
      CpuSample.activeIncrement c.before.prevCpu c.readings.cpu % 2 ^ 64 ≤
        CpuSample.totalIncrement c.before.prevCpu c.readings.cpu % 2 ^ 64
  rx : 0 < c.elapsed →
    c.vanished InterfaceLine.rxBytes % 2 ^ 64 ≤ c.gained InterfaceLine.rxBytes
  tx : 0 < c.elapsed →
    c.vanished InterfaceLine.txBytes % 2 ^ 64 ≤ c.gained InterfaceLine.txBytes

end Collection

/-- The collections of a run, each with the state before it and the table of the last reading that
could be opened. -/
def collections (m : Monitoring) (table : InterfaceTable) :
    List MonitoringReadings → List Collection
  | [] => []
  | r :: rs => ⟨m, table, r⟩ :: collections (m.collect r).2 (r.net.getD table) rs

/-- No counter decreases from one sample to the next, as long as it is there. -/
structure MonitoringReadings.Follows (r : MonitoringReadings) (cpu : CpuSample)
    (table : InterfaceTable) : Prop where
  cpu : cpu.Grows r.cpu
  net : ∀ next, r.net = some next →
    (table.counters InterfaceLine.rxBytes).Grows (next.counters InterfaceLine.rxBytes) ∧
    (table.counters InterfaceLine.txBytes).Grows (next.counters InterfaceLine.txBytes)

/-- Every sample follows the one before it: while an interface is there its counters do not
decrease, and neither do those of the processor. -/
def Steady (cpu : CpuSample) (table : InterfaceTable) : List MonitoringReadings → Prop
  | [] => True
  | r :: rs => r.Follows cpu table ∧ Steady r.cpu (r.net.getD table) rs

namespace Monitoring

variable {m : Monitoring} {cpu : CpuSample} {table : InterfaceTable} {r : MonitoringReadings}

/-- The state keeps an earlier sample of the processor, and the sums of the table. -/
structure Keeps (m : Monitoring) (cpu : CpuSample) (table : InterfaceTable) : Prop where
  cpu : m.prevCpu.Grows cpu
  rx : m.prevNet.rxBytes = UInt64.ofNat (table.counters InterfaceLine.rxBytes).total
  tx : m.prevNet.txBytes = UInt64.ofNat (table.counters InterfaceLine.txBytes).total
  nonneg : 0 ≤ m.cachedCpuUsage
  le : m.cachedCpuUsage ≤ 100

/-- A collection of the processor usage leaves the sample of the network alone. -/
theorem prevNet_collectCpu (m : Monitoring) (r : MonitoringReadings) :
    (m.collectCpu r).2.prevNet = m.prevNet := by
  unfold collectCpu
  split
  · rfl
  · dsimp only
    split <;> rfl

/-- The state after the processor usage is collected. -/
def afterCpu (m : Monitoring) (r : MonitoringReadings) : Monitoring :=
  if m.cpuAvailable then (m.collectCpu r).2 else m

/-- The network is collected from the sample that was there before the processor. -/
theorem prevNet_afterCpu (m : Monitoring) (r : MonitoringReadings) :
    (m.afterCpu r).prevNet = m.prevNet := by
  unfold afterCpu
  split
  · exact prevNet_collectCpu m r
  · rfl

/-- A usage that is computed is the quotient of the increments, and it is at most 100 exactly when
they are in order. -/
theorem collectCpu_cases (hk : m.Keeps cpu table) (hgrows : cpu.Grows r.cpu) :
    ((minWindow ≤ r.now - m.prevCpuTs →
        CpuSample.totalIncrement m.prevCpu r.cpu % 2 ^ 64 = 0 ∨
        CpuSample.activeIncrement m.prevCpu r.cpu % 2 ^ 64 ≤
          CpuSample.totalIncrement m.prevCpu r.cpu % 2 ^ 64) ↔
      0 ≤ (m.collectCpu r).1 ∧ (m.collectCpu r).1 ≤ 100) ∧
    (m.collectCpu r).2.cachedCpuUsage = (m.collectCpu r).1 ∧
    (m.collectCpu r).2.prevCpu.Grows r.cpu := by
  have hsample := hk.cpu.trans hgrows
  have htotal := hsample.total_sub
  have hactive := hsample.active_sub
  unfold collectCpu
  split
  -- A second read within the window answers from the cache.
  · next hwindow =>
    exact ⟨⟨fun _ => ⟨hk.nonneg, hk.le⟩, fun _ h => absurd hwindow (not_lt.mpr h)⟩, rfl, hsample⟩
  · next hwindow =>
    have hwindow := not_lt.mp hwindow
    dsimp only
    split
    -- No increment in total: the cached usage again, but the sample is taken over.
    · next hzero =>
      rw [hzero] at htotal
      exact ⟨⟨fun _ => ⟨hk.nonneg, hk.le⟩, fun _ _ => .inl htotal.symm⟩, rfl, .refl _⟩
    · next hzero =>
      have hpos : 0 < (r.cpu.total - m.prevCpu.total).toNat := by
        refine Nat.pos_of_ne_zero fun h => hzero ?_
        rw [← UInt64.toNat_inj, h]
        rfl
      refine ⟨?_, rfl, .refl _⟩
      rw [htotal, hactive]
      rw [htotal] at hpos
      generalize CpuSample.totalIncrement m.prevCpu r.cpu % 2 ^ 64 = t at *
      generalize CpuSample.activeIncrement m.prevCpu r.cpu % 2 ^ 64 = a at *
      have hpos' : (0 : Rat) < t := by exact_mod_cast hpos
      -- At most 100 exactly when no more was active than passed in total.
      have hle : (a : Rat) / t * 100 ≤ 100 ↔ a ≤ t := by
        rw [mul_le_iff_le_one_left (by norm_num), div_le_one hpos']
        exact Nat.cast_le
      rw [hle]
      constructor
      · intro h
        exact ⟨by positivity, (h hwindow).resolve_left hpos.ne'⟩
      · intro h _
        exact .inr h.2

/-- What a collection reports of the network, where the interfaces could be read: the differences of
the sums, divided by the time. -/
theorem collectNetwork_some {next : InterfaceTable} (hnet : r.net = some next)
    (hrx : m.prevNet.rxBytes = UInt64.ofNat (table.counters InterfaceLine.rxBytes).total)
    (htx : m.prevNet.txBytes = UInt64.ofNat (table.counters InterfaceLine.txBytes).total) :
    ∃ n, (m.collectNetwork r).1 = some n ∧
      n.rxRate * m.elapsed r = (if 0 < m.elapsed r then
        (UInt64.ofNat (next.counters InterfaceLine.rxBytes).total -
          UInt64.ofNat (table.counters InterfaceLine.rxBytes).total).toNat else 0 : Nat) ∧
      n.txRate * m.elapsed r = (if 0 < m.elapsed r then
        (UInt64.ofNat (next.counters InterfaceLine.txBytes).total -
          UInt64.ofNat (table.counters InterfaceLine.txBytes).total).toNat else 0 : Nat) := by
  unfold collectNetwork
  rw [readNetworkSample_eq hnet]
  simp only [Bool.not_true, Bool.false_eq_true, if_false, hrx, htx]
  by_cases hpos : 0 < m.elapsed r
  · refine ⟨_, rfl, ?_, ?_⟩
    · rw [if_pos hpos, if_pos hpos, div_mul_cancel₀ _ hpos.ne']
    · rw [if_pos hpos, if_pos hpos, div_mul_cancel₀ _ hpos.ne']
  · refine ⟨_, rfl, ?_, ?_⟩
    · rw [if_neg hpos, if_neg hpos, zero_mul, Nat.cast_zero]
    · rw [if_neg hpos, if_neg hpos, zero_mul, Nat.cast_zero]

/-- Without a table of the interfaces no rates are reported, and the sample stays for the next
collection. -/
theorem collectNetwork_none (hnet : r.net = none) : m.collectNetwork r = (none, m) := by
  simp [collectNetwork, readNetworkSample, hnet]

/-- A rate is in its bounds exactly when its difference does not wrap around. -/
theorem rate_iff {c d : Counters String} (hgrows : c.Grows d) {rate elapsed : Rat}
    (hrate : rate * elapsed = (if 0 < elapsed then
      (UInt64.ofNat d.total - UInt64.ofNat c.total).toNat else 0 : Nat)) :
    0 ≤ rate * elapsed ∧ rate * elapsed ≤ Counters.gained c d ↔
      (0 < elapsed → Counters.vanished c d % 2 ^ 64 ≤ Counters.gained c d) := by
  rw [hrate, ← sub_le_gained_iff hgrows, Nat.cast_le]
  by_cases hpos : 0 < elapsed
  · rw [if_pos hpos]
    exact ⟨fun h _ => h.2, fun h => ⟨Nat.cast_nonneg _, h hpos⟩⟩
  · rw [if_neg hpos]
    exact ⟨fun _ h => absurd h hpos, fun _ => ⟨Nat.cast_nonneg _, Nat.zero_le _⟩⟩

/-- The rates of one collection are in their bounds exactly when no wrap can show: in each of the
two columns, what has vanished with an interface is covered by what the others have gained. -/
theorem network_iff (hk : m.Keeps cpu table) (hr : r.Follows cpu table) :
    ((∀ n, (m.collectNetwork r).1 = some n → 0 ≤ n.rxRate * m.elapsed r ∧
        n.rxRate * m.elapsed r ≤ (Collection.mk m table r).gained InterfaceLine.rxBytes) ↔
      (0 < m.elapsed r → (Collection.mk m table r).vanished InterfaceLine.rxBytes % 2 ^ 64 ≤
        (Collection.mk m table r).gained InterfaceLine.rxBytes)) ∧
    ((∀ n, (m.collectNetwork r).1 = some n → 0 ≤ n.txRate * m.elapsed r ∧
        n.txRate * m.elapsed r ≤ (Collection.mk m table r).gained InterfaceLine.txBytes) ↔
      (0 < m.elapsed r → (Collection.mk m table r).vanished InterfaceLine.txBytes % 2 ^ 64 ≤
        (Collection.mk m table r).gained InterfaceLine.txBytes)) := by
  simp only [Collection.gained, Collection.vanished]
  cases hnet : r.net with
  | none => simp [collectNetwork_none hnet]
  | some next =>
    obtain ⟨n, hn, hrx, htx⟩ := collectNetwork_some hnet hk.rx hk.tx
    rw [hn]
    simp only [Option.some.injEq, forall_eq']
    exact ⟨rate_iff (hr.net next hnet).1 hrx, rate_iff (hr.net next hnet).2 htx⟩

/-- The time that a rate is for does not depend on the processor. -/
theorem elapsed_afterCpu (m : Monitoring) (r : MonitoringReadings) :
    (m.afterCpu r).elapsed r = m.elapsed r := by
  rw [elapsed, elapsed, prevNet_afterCpu]

/-- The rates of a collection are those of the state it has found. -/
theorem report_network (m : Monitoring) (table : InterfaceTable) (r : MonitoringReadings) :
    (Collection.mk m table r).report.network = (m.collectNetwork r).1 := by
  show ((m.afterCpu r).collectNetwork r).1 = _
  unfold collectNetwork
  rw [elapsed_afterCpu, prevNet_afterCpu]
  dsimp only
  split <;> rfl

/-- A collection is right exactly when its differences are in order. -/
theorem right_iff (hk : m.Keeps cpu table) (hr : r.Follows cpu table) :
    (Collection.mk m table r).Right ↔ (Collection.mk m table r).Bounded := by
  obtain ⟨hcpu, -, -⟩ := collectCpu_cases hk hr.cpu
  obtain ⟨hrx, htx⟩ := network_iff hk hr
  have husage : (∀ usage, (Collection.mk m table r).report.cpuUsage = some usage →
      0 ≤ usage ∧ usage ≤ 100) ↔
        (m.cpuAvailable = true → 0 ≤ (m.collectCpu r).1 ∧ (m.collectCpu r).1 ≤ 100) := by
    show (∀ usage, (if m.cpuAvailable then some (m.collectCpu r).1 else none) = some usage → _) ↔ _
    cases m.cpuAvailable <;> simp
  constructor
  · intro h
    refine ⟨fun havail => hcpu.mpr (husage.mp h.cpu havail), hrx.mp fun n hn => ?_,
      htx.mp fun n hn => ?_⟩
    · exact h.rx n ((report_network m table r).trans hn)
    · exact h.tx n ((report_network m table r).trans hn)
  · intro h
    refine ⟨husage.mpr fun havail => hcpu.mp (h.cpu havail), fun n hn => ?_, fun n hn => ?_⟩
    · exact hrx.mpr h.rx n ((report_network m table r).symm.trans hn)
    · exact htx.mpr h.tx n ((report_network m table r).symm.trans hn)

/-- A right collection leaves a state that keeps what was read. -/
theorem keeps_collect (hk : m.Keeps cpu table) (hr : r.Follows cpu table)
    (hright : (Collection.mk m table r).Right) :
    (m.collect r).2.Keeps r.cpu (r.net.getD table) := by
  obtain ⟨-, hcached, hgrows⟩ := collectCpu_cases hk hr.cpu
  have hafter : (m.afterCpu r).Keeps r.cpu table := by
    have hnet := prevNet_afterCpu m r
    -- The processor part keeps its sample and a usage between 0 and 100.
    refine ⟨?_, hnet ▸ hk.rx, hnet ▸ hk.tx, ?_, ?_⟩ <;> unfold afterCpu <;> split
    · exact hgrows
    · exact hk.cpu.trans hr.cpu
    · next havail =>
      rw [hcached]
      exact (hright.cpu _ (if_pos havail)).1
    · exact hk.nonneg
    · next havail =>
      rw [hcached]
      exact (hright.cpu _ (if_pos havail)).2
    · exact hk.le
  show ((m.afterCpu r).collectNetwork r).2.Keeps r.cpu (r.net.getD table)
  -- A sample of the network that could not be read leaves the one before.
  cases hnet : r.net with
  | none =>
    rw [collectNetwork_none hnet]
    exact hafter
  | some next =>
    unfold collectNetwork
    rw [readNetworkSample_eq hnet]
    exact ⟨hafter.cpu, rfl, rfl, hafter.nonneg, hafter.le⟩

/-- The first samples of the object are the readings of its constructor. -/
theorem keeps_init (r : MonitoringReadings) :
    (init r).Keeps r.cpu (r.net.getD InterfaceTable.empty) := by
  have hnet : (init r).prevNet = readNetworkSample r := rfl
  cases hr : r.net with
  | none =>
    have hsample : readNetworkSample r = { timestamp := r.netTime } := by
      rw [readNetworkSample, hr]
    rw [hsample] at hnet
    exact ⟨.refl _, hnet ▸ rfl, hnet ▸ rfl, le_rfl, by norm_num [init]⟩
  | some table =>
    rw [readNetworkSample_eq hr] at hnet
    exact ⟨.refl _, hnet ▸ rfl, hnet ▸ rfl, le_rfl, by norm_num [init]⟩

/-- From any state that keeps the samples of the readings, all collections are right exactly when
each of them is bounded. The induction is on the readings, with `network_iff` in each step. -/
theorem right_iff_from {rs : List MonitoringReadings} (hk : m.Keeps cpu table)
    (hsteady : Steady cpu table rs) :
    (∀ c ∈ collections m table rs, c.Right) ↔ ∀ c ∈ collections m table rs, c.Bounded := by
  induction rs generalizing m cpu table with
  | nil => simp [collections]
  | cons r rs ih =>
    obtain ⟨hr, hrest⟩ := hsteady
    have hhead := right_iff hk hr
    simp only [collections, List.forall_mem_cons]
    constructor
    · rintro ⟨hright, htail⟩
      exact ⟨hhead.mp hright, (ih (keeps_collect hk hr hright) hrest).mp htail⟩
    · rintro ⟨hbounded, htail⟩
      have hright := hhead.mpr hbounded
      exact ⟨hright, (ih (keeps_collect hk hr hright) hrest).mpr htail⟩

end Monitoring

/-- The collections since the start of the agent, whose first readings only initialise the state. -/
def collectionsFrom (start : MonitoringReadings) (rs : List MonitoringReadings) : List Collection :=
  collections (Monitoring.init start) (start.net.getD InterfaceTable.empty) rs

/-- In a run in which no counter decreases while it is there, all usages and rates are in their
bounds exactly when all differences are in order. The usages and rates are the exact quotients of
the differences. The `double` that the source computes is off by its rounding. -/
theorem monitoring_iff {start : MonitoringReadings} {rs : List MonitoringReadings}
    (hsteady : Steady start.cpu (start.net.getD InterfaceTable.empty) rs) :
    (∀ c ∈ collectionsFrom start rs, c.Right) ↔ ∀ c ∈ collectionsFrom start rs, c.Bounded :=
  Monitoring.right_iff_from (Monitoring.keeps_init start) hsteady

section Sample

/-- An interface with a number of received bytes. -/
def sampleLine (iface : String) (rx : UInt64) : InterfaceLine := ⟨iface, [rx]⟩

/-- The readings of the constructor: a processor with a tenth of its time used, and two
interfaces. -/
def sampleReadings : MonitoringReadings where
  now := 0
  cpu := { user := 10, idle := 90 }
  netTime := 0
  net := some ⟨[sampleLine "eth0" 100, sampleLine "veth1" 50], by decide⟩

/-- A second sample, where the interfaces are as given. -/
def sampleFollowing (table : InterfaceTable) : MonitoringReadings where
  now := 20 * 10 ^ 9
  cpu := { user := 20, idle := 180 }
  netTime := 20 * 10 ^ 9
  net := some table

/-- `veth1` is gone, and `eth0` has received the given number of bytes. -/
def tableWithout (rx : UInt64) : InterfaceTable :=
  ⟨[sampleLine "eth0" rx, sampleLine "wlan0" 5], by simp [sampleLine]⟩

/-- The readings of a moment later follow the sample readings when the counters of each column have
grown. -/
theorem follows_sample {rx : UInt64}
    (hrx : ((sampleReadings.net.getD InterfaceTable.empty).counters InterfaceLine.rxBytes).Grows
      ((tableWithout rx).counters InterfaceLine.rxBytes))
    (htx : ((sampleReadings.net.getD InterfaceTable.empty).counters InterfaceLine.txBytes).Grows
      ((tableWithout rx).counters InterfaceLine.txBytes)) :
    (sampleFollowing (tableWithout rx)).Follows sampleReadings.cpu
      (sampleReadings.net.getD InterfaceTable.empty) := by
  have hcpu : sampleReadings.cpu.Grows { user := 20, idle := 180 } := by decide
  refine ⟨hcpu, fun next hnext => ?_⟩
  obtain rfl : tableWithout rx = next := Option.some.inj hnext
  exact ⟨hrx, htx⟩

/-- The condition at a run in which `veth1` vanishes and the other interface received more than it
had counted. -/
theorem monitoring_iff_sample :
    (∀ c ∈ collectionsFrom sampleReadings [sampleFollowing (tableWithout 200)], c.Right) ↔
      ∀ c ∈ collectionsFrom sampleReadings [sampleFollowing (tableWithout 200)], c.Bounded :=
  monitoring_iff ⟨follows_sample (by decide +kernel) (by decide +kernel), trivial⟩

/-- Less was received than `veth1` had, and the rate wraps around. -/
theorem not_monitoring_sample : ¬ ∀ (start : MonitoringReadings) (rs : List MonitoringReadings),
    Steady start.cpu (start.net.getD InterfaceTable.empty) rs →
      ∀ c ∈ collectionsFrom start rs, c.Right := by
  intro hall
  have hfollows : (sampleFollowing (tableWithout 120)).Follows sampleReadings.cpu
      (sampleReadings.net.getD InterfaceTable.empty) :=
    follows_sample (by decide +kernel) (by decide +kernel)
  have hright := hall sampleReadings [sampleFollowing (tableWithout 120)] ⟨hfollows, trivial⟩ _
    List.mem_cons_self
  have hbounded := (Monitoring.right_iff (Monitoring.keeps_init sampleReadings) hfollows).mp hright
  have hwrap := hbounded.rx (by decide +kernel)
  revert hwrap
  decide +kernel

end Sample

end ThinrAgent
