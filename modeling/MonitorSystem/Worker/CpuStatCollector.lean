import MonitorSystem.Library.SqlExact
import MonitorSystem.Worker.CpuStatMonitor

/-!
# What the kernel module exports, and what is read of it

`update_cpu_stats` (`worker/src/kmod/CpuStatCollector.c`) writes the times of up to 256 processors
into the memory that it shares with `CpuStatMonitor`. The monitor maps, and reads, 128 entries.
What it publishes covers the exported processors exactly when the counters of those that come
after have not advanced (`cpuStat_covers_iff`).

All times are in jiffies. The idle time and the time of waiting are taken from the microseconds of
the tick code if it counts them, and these go through a conversion of 32 bits. The exported times
are those of the kernel as long as the microseconds fit (`exportedRight_iff`).
-/

namespace MonitorSystem

open CpuTotals

/-! ### The export -/

/-- **The conversions of the kernel**: `HZ`, and `usecs_to_jiffies` with its argument of 32 bits,
which rounds up. -/
structure JiffyClock where
  hz : ℕ
  hz_pos : 0 < hz
  usecsToJiffies : ℕ → ℕ
  rounds_up : ∀ us < 2 ^ 32, usecsToJiffies us = (us * hz + 999999) / 1000000

/-- The times of a processor: those of `kernel_cpustat` in nanoseconds, and those that
`get_cpu_idle_time_us` and `get_cpu_iowait_time_us` return. -/
structure CpuTimes where
  user : ℕ := 0
  nice : ℕ := 0
  system : ℕ := 0
  idle : ℕ := 0
  iowait : ℕ := 0
  irq : ℕ := 0
  softirq : ℕ := 0
  steal : ℕ := 0
  guest : ℕ := 0
  guestNice : ℕ := 0
  idleUs : ℕ := 0
  iowaitUs : ℕ := 0
  deriving DecidableEq, Repr

/-- `-1ULL`: what is returned if the microseconds are not counted. -/
def notCounted : ℕ := 2 ^ 64 - 1

/-- `nsec_to_jiffies`. -/
def nsecToJiffies (clock : JiffyClock) (nsec : ℕ) : ℕ := nsec / (1000000000 / clock.hz)

/-- `cpu_stat_get_idle_time`. The argument of `usecs_to_jiffies` is an `unsigned int`. -/
def cpuStatGetIdleTime (clock : JiffyClock) (times : CpuTimes) : ℕ :=
  if times.idleUs = notCounted then nsecToJiffies clock times.idle
  else clock.usecsToJiffies (times.idleUs % 2 ^ 32)

/-- `cpu_stat_get_iowait_time`. -/
def cpuStatGetIowaitTime (clock : JiffyClock) (times : CpuTimes) : ℕ :=
  if times.iowaitUs = notCounted then nsecToJiffies clock times.iowait
  else clock.usecsToJiffies (times.iowaitUs % 2 ^ 32)

/-- The counters of an entry. -/
def cpuCounters (clock : JiffyClock) (times : CpuTimes) : CpuCounters where
  user := nsecToJiffies clock times.user
  nice := nsecToJiffies clock times.nice
  system := nsecToJiffies clock times.system
  idle := cpuStatGetIdleTime clock times
  iowait := cpuStatGetIowaitTime clock times
  irq := nsecToJiffies clock times.irq
  softirq := nsecToJiffies clock times.softirq
  steal := nsecToJiffies clock times.steal
  guest := nsecToJiffies clock times.guest
  guestNice := nsecToJiffies clock times.guestNice

/-- `MAX_CPUS`: how many entries are written. -/
def maxCpus : ℕ := 256

/-- The name of a processor. -/
def cpuName (cpu : ℕ) : String := "cpu" ++ toString cpu

/-- The entry of a processor. -/
def cpuStat (clock : JiffyClock) (times : ℕ → CpuTimes) (cpu : ℕ) : KernelCpuStat :=
  ⟨cpuName cpu, cpuCounters clock (times cpu)⟩

/-- **`update_cpu_stats`**: the entries of the possible processors, and the mark of the end if there
is room for it. -/
def updateCpuStats (clock : JiffyClock) (times : ℕ → CpuTimes) (cpus : List ℕ) :
    List KernelCpuStat :=
  (cpus.take maxCpus).map (cpuStat clock times) ++
    if (cpus.take maxCpus).length < maxCpus then [⟨"", {}⟩] else []

/-! ### What is read of it -/

theorem toList_cpuName (cpu : ℕ) :
    (cpuName cpu).toList = "cpu".toList ++ (toString cpu).toList := by
  rw [cpuName, String.toList_append]

/-- The names of the processors begin with their first letter. -/
theorem cpuName_ne {name : String} (h : name.toList.head? ≠ some 'c') (cpu : ℕ) :
    cpuName cpu ≠ name := by
  rintro rfl
  rw [toList_cpuName] at h
  exact h rfl

theorem cpuName_ne_nil (cpu : ℕ) : cpuName cpu ≠ "" := cpuName_ne (by decide) cpu

theorem cpuName_ne_all (cpu : ℕ) : cpuName cpu ≠ "all" := cpuName_ne (by decide) cpu

theorem cpuName_injective : Function.Injective cpuName := by
  intro a b h
  have hlist := congrArg String.toList h
  rw [toList_cpuName, toList_cpuName] at hlist
  have hdigits := List.append_cancel_left hlist
  rw [Sql.toList_toString_nat, Sql.toList_toString_nat] at hdigits
  have hint := congrArg Sql.intOf hdigits
  rw [Sql.intOf_toDigits, Sql.intOf_toDigits] at hint
  exact_mod_cast hint

/-- **Reading up to the mark**, from an array that is mapped in part: the first entries are those of
the first processors, whether the mark is among them or not. -/
theorem takeWhile_take_exported {α : Type*} {name : α → String} {entry : ℕ → α} {mark : α}
    (hentry : ∀ cpu, name (entry cpu) ≠ "") (hmark : name mark = "") {count : ℕ}
    (hcount : count ≤ maxCpus) (cpus : List ℕ) :
    (((cpus.take maxCpus).map entry ++
        if (cpus.take maxCpus).length < maxCpus then [mark] else []).take count).takeWhile
      (fun e => name e ≠ "") = (cpus.take count).map entry := by
  have hnames : ∀ l : List ℕ, ∀ e ∈ l.map entry, decide (name e ≠ "") = true := by
    intro l e he
    obtain ⟨cpu, -, rfl⟩ := List.mem_map.mp he
    exact decide_eq_true (hentry cpu)
  rcases Nat.lt_or_ge cpus.length count with hlt | hge
  · -- the mark is among the entries that are mapped
    rw [List.take_of_length_le (hlt.le.trans hcount), if_pos (hlt.trans_le hcount),
      List.take_of_length_le (by rw [List.length_append, List.length_map]; exact hlt),
      List.take_of_length_le hlt.le, List.takeWhile_append_of_pos (hnames cpus)]
    simp [hmark]
  · have hlength : count ≤ ((cpus.take maxCpus).map entry).length := by
      rw [List.length_map, List.length_take]
      exact le_min hcount hge
    rw [List.take_append_of_le_length hlength, ← List.map_take, List.take_take,
      min_eq_left hcount, List.takeWhile_eq_self_iff]
    exact hnames _

/-- **The first 128 of the exported processors are read.** -/
theorem readStats_updateCpuStats (clock : JiffyClock) (times : ℕ → CpuTimes) (cpus : List ℕ) :
    readStats (updateCpuStats clock times cpus) =
      (cpus.take statCount).map (cpuStat clock times) := by
  have hentry : ∀ cpu, (cpuStat clock times cpu).cpuName ≠ "" := fun cpu => cpuName_ne_nil cpu
  exact takeWhile_take_exported hentry rfl (by decide : statCount ≤ maxCpus) cpus

/-! ### Distinct names -/

theorem mapRead_of_notMem {map : CpuStatMap} {stats : List KernelCpuStat} {name : String}
    (h : name ∉ stats.map (·.cpuName)) : mapRead map stats name = map name := by
  induction stats generalizing map with
  | nil => rfl
  | cons stat stats ih =>
    rw [List.map_cons, List.mem_cons, not_or] at h
    exact (ih h.2).trans (Function.update_of_ne h.1 _ _)

/-- The counters of an entry are kept under its name. -/
theorem mapRead_of_mem {map : CpuStatMap} {stats : List KernelCpuStat}
    (hnodup : (stats.map (·.cpuName)).Nodup) {stat : KernelCpuStat} (h : stat ∈ stats) :
    mapRead map stats stat.cpuName = some stat.counters := by
  induction stats generalizing map with
  | nil => cases h
  | cons first stats ih =>
    rw [List.map_cons, List.nodup_cons] at hnodup
    rcases List.mem_cons.mp h with rfl | hmem
    · exact (mapRead_of_notMem hnodup.1).trans (Function.update_self _ _ _)
    · exact ih hnodup.2 hmem

/-- With distinct names, every entry is compared with what was kept before the call. -/
theorem baselines_of_nodup {map : CpuStatMap} {stats : List KernelCpuStat}
    (hnodup : (stats.map (·.cpuName)).Nodup) :
    baselines map stats = stats.filterMap fun stat =>
      (map stat.cpuName).map fun old => ⟨stat.cpuName, old, stat.counters⟩ := by
  induction stats generalizing map with
  | nil => rfl
  | cons stat stats ih =>
    rw [List.map_cons, List.nodup_cons] at hnodup
    have hrest : stats.filterMap (fun next =>
        (Function.update map stat.cpuName (some stat.counters) next.cpuName).map
          fun old => (⟨next.cpuName, old, next.counters⟩ : Baseline)) =
        stats.filterMap fun next =>
          (map next.cpuName).map fun old => ⟨next.cpuName, old, next.counters⟩ := by
      refine List.filterMap_congr fun next hnext => ?_
      have hne : next.cpuName ≠ stat.cpuName := by
        intro heq
        exact hnodup.1 (heq ▸ List.mem_map_of_mem hnext)
      rw [Function.update_of_ne hne]
    rw [baselines, ih hnodup.2, hrest]
    cases hold : map stat.cpuName with
    | none => simp [hold]
    | some old => simp [hold]

/-! ### Two samples -/

section TwoSamples

variable (clock : JiffyClock) (before now : ℕ → CpuTimes)

/-- What a second sample publishes, whatever has been kept before the first one. -/
def twoUpdates (map : CpuStatMap) (cpus : List ℕ) : List CpuStat :=
  (updateOnce (updateOnce map (some (updateCpuStats clock before cpus))).1
    (some (updateCpuStats clock now cpus))).2

/-- The counters of a processor have advanced. -/
def Advanced (cpu : ℕ) : Prop :=
  totalTime (addTotals {} (cpuCounters clock (before cpu))) <
    totalTime (addTotals {} (cpuCounters clock (now cpu)))

instance decidableAdvanced (cpu : ℕ) : Decidable (Advanced clock before now cpu) :=
  inferInstanceAs (Decidable (_ < _))

/-- The shares of a processor. -/
def cpuShares (cpu : ℕ) : Option CpuStat :=
  setCpuStatPercentages (cpuName cpu) (addTotals {} (cpuCounters clock (now cpu)))
    (addTotals {} (cpuCounters clock (before cpu)))

/-- The shares of the sums over some processors. -/
def allShares (cpus : List ℕ) : Option CpuStat :=
  setCpuStatPercentages "all" ((cpus.map fun cpu => cpuCounters clock (now cpu)).foldl addTotals {})
    ((cpus.map fun cpu => cpuCounters clock (before cpu)).foldl addTotals {})

/-- **The published entries cover what is exported**: every exported processor whose counters have
advanced has its entry, and the entry `all` is made of the sums over exported processors, among
them each of those. -/
structure ExportCovered (cpus : List ℕ) (msgs : List CpuStat) : Prop where
  each : ∀ cpu ∈ cpus.take maxCpus, Advanced clock before now cpu →
    ∃ msg ∈ msgs, cpuShares clock before now cpu = some msg
  all : ∃ summed, summed.Sublist (cpus.take maxCpus) ∧
    (∀ cpu ∈ cpus.take maxCpus, Advanced clock before now cpu → cpu ∈ summed) ∧
    msgs.filter (·.cpuName = "all") = (allShares clock before now summed).toList

variable {clock before now}

theorem cpuName_of_setCpuStatPercentages {name : String} {curr old : CpuTotals} {msg : CpuStat}
    (h : setCpuStatPercentages name curr old = some msg) : msg.cpuName = name := by
  simp only [setCpuStatPercentages] at h
  split at h
  · cases h
  · obtain rfl := Option.some.inj h
    rfl

/-- An entry is published if and only if the counters have advanced. -/
theorem advanced_iff {cpu : ℕ} :
    Advanced clock before now cpu ↔ ∃ msg, cpuShares clock before now cpu = some msg := by
  simp only [Advanced, cpuShares, setCpuStatPercentages]
  split
  · next hle =>
    rw [sub_nonpos, Nat.cast_le] at hle
    refine iff_of_false hle.not_gt ?_
    rintro ⟨msg, hmsg⟩
    cases hmsg
  · next hlt =>
    rw [sub_nonpos, Nat.cast_le, not_le] at hlt
    exact ⟨fun _ => ⟨_, rfl⟩, fun _ => hlt⟩

/-- **What two samples publish**: the shares of the first 128 processors, and those of their
sums. -/
theorem twoUpdates_eq (map : CpuStatMap) {cpus : List ℕ} (hnodup : cpus.Nodup) :
    twoUpdates clock before now map cpus =
      (cpus.take statCount).filterMap (cpuShares clock before now) ++
        (allShares clock before now (cpus.take statCount)).toList := by
  have hread : ∀ times, readings (some (updateCpuStats clock times cpus)) =
      (cpus.take statCount).map (cpuStat clock times) :=
    fun times => readStats_updateCpuStats clock times cpus
  have hnames : ∀ times : ℕ → CpuTimes,
      (((cpus.take statCount).map (cpuStat clock times)).map (·.cpuName)).Nodup := by
    intro times
    rw [List.map_map]
    exact (hnodup.sublist (List.take_sublist _ _)).map cpuName_injective
  have hbases : baselines (mapRead map ((cpus.take statCount).map (cpuStat clock before)))
        ((cpus.take statCount).map (cpuStat clock now)) =
      (cpus.take statCount).map fun cpu =>
        ⟨cpuName cpu, cpuCounters clock (before cpu), cpuCounters clock (now cpu)⟩ := by
    rw [baselines_of_nodup (hnames now), List.filterMap_map]
    refine (List.filterMap_congr fun cpu hcpu => ?_).trans (congrFun List.filterMap_eq_map _)
    have hkept : mapRead map ((cpus.take statCount).map (cpuStat clock before)) (cpuName cpu) =
        some (cpuCounters clock (before cpu)) :=
      mapRead_of_mem (hnames before) (List.mem_map_of_mem hcpu)
    simp only [Function.comp_apply, cpuStat, hkept, Option.map_some]
  rw [twoUpdates, updateOnce_eq, updateOnce_eq, hread, hread]
  simp only [hbases, List.filterMap_map, List.map_map, List.map_eq_nil_iff]
  congr 1
  split
  · next hnil => simp [hnil, allShares, setCpuStatPercentages]
  · rfl

/-- The processors that come after those that are read. -/
theorem mem_take_statCount {cpus : List ℕ} {cpu : ℕ} (hcpu : cpu ∈ cpus.take maxCpus)
    (hunread : cpu ∉ (cpus.take maxCpus).drop statCount) : cpu ∈ cpus.take statCount := by
  rw [← List.take_append_drop statCount (cpus.take maxCpus), List.mem_append] at hcpu
  have htake := hcpu.resolve_right hunread
  rwa [List.take_take] at htake

theorem covers_of_read (map : CpuStatMap) {cpus : List ℕ} (hnodup : cpus.Nodup)
    (h : ∀ cpu ∈ (cpus.take maxCpus).drop statCount, ¬Advanced clock before now cpu) :
    ExportCovered clock before now cpus (twoUpdates clock before now map cpus) := by
  have hread : ∀ cpu ∈ cpus.take maxCpus, Advanced clock before now cpu →
      cpu ∈ cpus.take statCount :=
    fun cpu hcpu hadvanced => mem_take_statCount hcpu fun hdrop => h cpu hdrop hadvanced
  rw [twoUpdates_eq map hnodup]
  refine ⟨fun cpu hcpu hadvanced => ?_, cpus.take statCount, ?_, hread, ?_⟩
  · obtain ⟨msg, hmsg⟩ := advanced_iff.mp hadvanced
    exact ⟨msg, List.mem_append_left _
      (List.mem_filterMap.mpr ⟨cpu, hread cpu hcpu hadvanced, hmsg⟩), hmsg⟩
  · have htake : cpus.take statCount = (cpus.take maxCpus).take statCount := by
      rw [List.take_take]
      congr 1
    rw [htake]
    exact List.take_sublist _ _
  · have hnone : ((cpus.take statCount).filterMap (cpuShares clock before now)).filter
        (·.cpuName = "all") = [] := by
      rw [List.filter_eq_nil_iff]
      intro msg hmsg hall
      obtain ⟨cpu, -, hshares⟩ := List.mem_filterMap.mp hmsg
      exact cpuName_ne_all cpu
        ((cpuName_of_setCpuStatPercentages hshares).symm.trans (of_decide_eq_true hall))
    have hself : (allShares clock before now (cpus.take statCount)).toList.filter
        (·.cpuName = "all") = (allShares clock before now (cpus.take statCount)).toList := by
      rw [List.filter_eq_self]
      intro msg hmsg
      exact decide_eq_true (cpuName_of_setCpuStatPercentages (Option.mem_toList.mp hmsg))
    rw [List.filter_append, hnone, hself, List.nil_append]

/-- **A processor behind the 128th has no entry.** -/
theorem not_covers_of_unread (map : CpuStatMap) {cpus : List ℕ} (hnodup : cpus.Nodup) {cpu : ℕ}
    (hcpu : cpu ∈ (cpus.take maxCpus).drop statCount)
    (hadvanced : Advanced clock before now cpu) :
    ¬ExportCovered clock before now cpus (twoUpdates clock before now map cpus) := by
  intro h
  obtain ⟨msg, hmem, hmsg⟩ := h.each cpu (List.mem_of_mem_drop hcpu) hadvanced
  have hname : msg.cpuName = cpuName cpu := cpuName_of_setCpuStatPercentages hmsg
  rw [twoUpdates_eq map hnodup] at hmem
  rcases List.mem_append.mp hmem with hmem | hmem
  · obtain ⟨other, hother, hshares⟩ := List.mem_filterMap.mp hmem
    have hsame : other = cpu := cpuName_injective
      ((cpuName_of_setCpuStatPercentages hshares).symm.trans hname)
    rw [hsame] at hother
    have hdisjoint := List.disjoint_take_drop (hnodup.sublist (List.take_sublist maxCpus cpus))
      (le_refl statCount)
    refine hdisjoint (a := cpu) ?_ hcpu
    rwa [List.take_take]
  · have hall := cpuName_of_setCpuStatPercentages (Option.mem_toList.mp hmem)
    exact cpuName_ne_all cpu (hname.symm.trans hall)

/-- **What is published covers what is exported** exactly when none of the exported processors
that come after the first 128 has advanced. -/
theorem cpuStat_covers_iff (clock : JiffyClock) (before now : ℕ → CpuTimes) (map : CpuStatMap)
    {cpus : List ℕ} (hnodup : cpus.Nodup) :
    ExportCovered clock before now cpus (twoUpdates clock before now map cpus) ↔
      ∀ cpu ∈ (cpus.take maxCpus).drop statCount, ¬Advanced clock before now cpu :=
  ⟨fun h _ hcpu hadvanced => not_covers_of_unread map hnodup hcpu hadvanced h,
    covers_of_read map hnodup⟩

/-- A clock of a thousand ticks a second. -/
def thousandTicks : JiffyClock where
  hz := 1000
  hz_pos := by decide
  usecsToJiffies us := (us * 1000 + 999999) / 1000000
  rounds_up _ _ := rfl

/-- Two processors, of which the first one works for a second. -/
theorem cpuStat_covers_twoCpus :
    ExportCovered thousandTicks (fun _ => {})
      (fun cpu => if cpu = 0 then { user := 1000000000 } else {}) [0, 1]
      (twoUpdates thousandTicks (fun _ => {})
        (fun cpu => if cpu = 0 then { user := 1000000000 } else {}) (fun _ => none) [0, 1]) :=
  (cpuStat_covers_iff _ _ _ _ (by decide)).mpr (by decide)

/-- Of 129 processors, only the last one works: nothing is published for it. -/
theorem cpuStat_lastCpu_missed :
    ¬ExportCovered thousandTicks (fun _ => {})
      (fun cpu => if cpu = 128 then { user := 1000000000 } else {}) (List.range 129)
      (twoUpdates thousandTicks (fun _ => {})
        (fun cpu => if cpu = 128 then { user := 1000000000 } else {}) (fun _ => none)
        (List.range 129)) := by
  have hunread : 128 ∈ ((List.range 129).take maxCpus).drop statCount := by decide
  exact not_covers_of_unread _ List.nodup_range hunread (by decide)

end TwoSamples

/-! ### The idle time and the time of waiting -/

section Exported

variable (clock : JiffyClock)

/-- Microseconds in jiffies. -/
def jiffiesOf (us : ℕ) : ℚ := us * clock.hz / 1000000

/-- **The exported idle times and times of waiting are right** for the samples of a processor: they
never go back, they are the microseconds in jiffies up to rounding, and whatever the other counters
are, they do not make the total time go back. -/
structure ExportedRight (samples : List CpuTimes) : Prop where
  idle_mono : (samples.map fun t => (cpuCounters clock t).idle).Pairwise (· ≤ ·)
  iowait_mono : (samples.map fun t => (cpuCounters clock t).iowait).Pairwise (· ≤ ·)
  idle_rounded : ∀ t ∈ samples, |((cpuCounters clock t).idle : ℚ) - jiffiesOf clock t.idleUs| < 1
  iowait_rounded : ∀ t ∈ samples,
    |((cpuCounters clock t).iowait : ℚ) - jiffiesOf clock t.iowaitUs| < 1
  total_mono : samples.Pairwise fun old curr => ∀ others : CpuCounters,
    let counters t := { others with
      idle := (cpuCounters clock t).idle, iowait := (cpuCounters clock t).iowait }
    (counters curr).totals.total < 2 ^ 64 →
      totalTime (addTotals {} (counters old)) ≤ totalTime (addTotals {} (counters curr))

variable {clock}

/-- **Microseconds of 32 bits are converted up to rounding.** -/
theorem abs_usecsToJiffies_sub_lt {us : ℕ} (h : us < 2 ^ 32) :
    |(clock.usecsToJiffies us : ℚ) - jiffiesOf clock us| < 1 := by
  rw [clock.rounds_up us h, jiffiesOf]
  have hle := Nat.div_mul_le_self (us * clock.hz + 999999) 1000000
  have hlt := Nat.lt_div_mul_add (a := us * clock.hz + 999999) (b := 1000000) (by decide)
  generalize (us * clock.hz + 999999) / 1000000 = q at hle hlt ⊢
  have hle' : (q : ℚ) * 1000000 ≤ us * clock.hz + 999999 := by exact_mod_cast hle
  have hlt' : (us * clock.hz : ℚ) + 999999 < q * 1000000 + 1000000 := by exact_mod_cast hlt
  rw [abs_lt]
  constructor <;> linarith

/-- **Others lose their upper half**, which is more than any rounding. -/
theorem one_le_abs_usecsToJiffies_sub {us : ℕ} (h : 2 ^ 32 ≤ us) :
    1 ≤ |(clock.usecsToJiffies (us % 2 ^ 32) : ℚ) - jiffiesOf clock us| := by
  have hlow : us % 2 ^ 32 < 2 ^ 32 := Nat.mod_lt us (by decide)
  have hupper : (clock.usecsToJiffies (us % 2 ^ 32) : ℚ) - jiffiesOf clock (us % 2 ^ 32) < 1 :=
    (abs_lt.mp (abs_usecsToJiffies_sub_lt hlow)).2
  have hmod : us % 2 ^ 32 + 2 ^ 32 ≤ us := by omega
  have hlost : (((us % 2 ^ 32 : ℕ) : ℚ) + 2 ^ 32) * clock.hz ≤ us * clock.hz := by
    exact_mod_cast Nat.mul_le_mul_right _ hmod
  have hhz : (1 : ℚ) ≤ clock.hz := by exact_mod_cast clock.hz_pos
  rw [jiffiesOf] at hupper ⊢
  rw [add_mul] at hlost
  generalize us % 2 ^ 32 = low at hupper hlost ⊢
  rw [le_abs]
  right
  linarith only [hupper, hlost, hhz]

/-- **A time is exported up to rounding** if and only if its microseconds fit into 32 bits. -/
theorem abs_exported_sub_lt_iff {us : ℕ} :
    |(clock.usecsToJiffies (us % 2 ^ 32) : ℚ) - jiffiesOf clock us| < 1 ↔ us < 2 ^ 32 := by
  constructor
  · intro h
    by_contra hge
    exact absurd (one_le_abs_usecsToJiffies_sub (not_lt.mp hge)) h.not_ge
  · intro h
    rw [Nat.mod_eq_of_lt h]
    exact abs_usecsToJiffies_sub_lt h

/-- Microseconds that fit are exported in their order. -/
theorem exported_mono {a b : ℕ} (h : a ≤ b) (hlt : b < 2 ^ 32) :
    clock.usecsToJiffies (a % 2 ^ 32) ≤ clock.usecsToJiffies (b % 2 ^ 32) := by
  have hlt' := h.trans_lt hlt
  rw [Nat.mod_eq_of_lt hlt, Nat.mod_eq_of_lt hlt', clock.rounds_up a hlt', clock.rounds_up b hlt]
  exact Nat.div_le_div_right (Nat.add_le_add_right (Nat.mul_le_mul_right _ h) _)

/-- A time that the tick code counts. -/
theorem cpuStatGetIdleTime_eq {t : CpuTimes} (h : t.idleUs ≠ notCounted) :
    (cpuCounters clock t).idle = clock.usecsToJiffies (t.idleUs % 2 ^ 32) := if_neg h

theorem cpuStatGetIowaitTime_eq {t : CpuTimes} (h : t.iowaitUs ≠ notCounted) :
    (cpuCounters clock t).iowait = clock.usecsToJiffies (t.iowaitUs % 2 ^ 32) := if_neg h

/-- The total time does not go back because of the two. -/
theorem totalTime_mono {old curr : CpuCounters} (h : old.Le curr)
    (hlt : curr.totals.total < 2 ^ 64) :
    totalTime (addTotals {} old) ≤ totalTime (addTotals {} curr) := by
  have hle : old.totals.total ≤ curr.totals.total := by
    obtain ⟨huser, hnice, hsystem, hidle, hiowait, hirq, hsoftirq, hsteal⟩ := h
    simp only [total, CpuCounters.totals]
    omega
  have hlt' := hle.trans_lt hlt
  rw [addTotals_zero hlt, addTotals_zero hlt', totalTime_eq hlt, totalTime_eq hlt']
  exact hle

/-- **The exported times of a processor are right** exactly when its microseconds fit into 32 bits,
which they do for 71 minutes. For every sequence of readings that the tick code counts, and that
do not go back. -/
theorem exportedRight_iff (clock : JiffyClock) {samples : List CpuTimes}
    (hidle : (samples.map (·.idleUs)).Pairwise (· ≤ ·))
    (hiowait : (samples.map (·.iowaitUs)).Pairwise (· ≤ ·))
    (hcounted : ∀ t ∈ samples, t.idleUs < notCounted ∧ t.iowaitUs < notCounted) :
    ExportedRight clock samples ↔ ∀ t ∈ samples, t.idleUs < 2 ^ 32 ∧ t.iowaitUs < 2 ^ 32 := by
  have hidleTime : ∀ t ∈ samples,
      (cpuCounters clock t).idle = clock.usecsToJiffies (t.idleUs % 2 ^ 32) :=
    fun t ht => cpuStatGetIdleTime_eq (hcounted t ht).1.ne
  have hiowaitTime : ∀ t ∈ samples,
      (cpuCounters clock t).iowait = clock.usecsToJiffies (t.iowaitUs % 2 ^ 32) :=
    fun t ht => cpuStatGetIowaitTime_eq (hcounted t ht).2.ne
  constructor
  · intro h t ht
    have hidle' := h.idle_rounded t ht
    have hiowait' := h.iowait_rounded t ht
    rw [hidleTime t ht] at hidle'
    rw [hiowaitTime t ht] at hiowait'
    exact ⟨abs_exported_sub_lt_iff.mp hidle', abs_exported_sub_lt_iff.mp hiowait'⟩
  · intro h
    -- what two samples export, in their order
    have hmono : samples.Pairwise fun old curr =>
        (cpuCounters clock old).idle ≤ (cpuCounters clock curr).idle ∧
          (cpuCounters clock old).iowait ≤ (cpuCounters clock curr).iowait := by
      refine ((List.pairwise_map.mp hidle).and (List.pairwise_map.mp hiowait)).imp_of_mem ?_
      rintro old curr hold hcurr ⟨hidleLe, hiowaitLe⟩
      rw [hidleTime old hold, hidleTime curr hcurr, hiowaitTime old hold, hiowaitTime curr hcurr]
      exact ⟨exported_mono hidleLe (h curr hcurr).1, exported_mono hiowaitLe (h curr hcurr).2⟩
    refine ⟨List.pairwise_map.mpr (hmono.imp And.left), List.pairwise_map.mpr (hmono.imp And.right),
      ?_, ?_, hmono.imp ?_⟩
    · intro t ht
      rw [hidleTime t ht]
      exact abs_exported_sub_lt_iff.mpr (h t ht).1
    · intro t ht
      rw [hiowaitTime t ht]
      exact abs_exported_sub_lt_iff.mpr (h t ht).2
    · intro old curr hle others counters hlt
      exact totalTime_mono ⟨le_rfl, le_rfl, le_rfl, hle.1, hle.2, le_rfl, le_rfl, le_rfl⟩ hlt

/-- A processor that has been idle for a second, and for an hour. -/
theorem exportedRight_oneHour :
    ExportedRight thousandTicks [{ idleUs := 1000000 }, { idleUs := 3600000000 }] :=
  (exportedRight_iff _ (by decide) (by decide) (by decide)).mpr (by decide)

/-- A microsecond later the microseconds do not fit any more: the exported idle time starts again
from zero. -/
theorem exportedRight_fails :
    ¬ExportedRight thousandTicks [{ idleUs := 2 ^ 32 - 1 }, { idleUs := 2 ^ 32 }] := by
  intro h
  exact absurd h.idle_mono (by decide)

end Exported

end MonitorSystem
