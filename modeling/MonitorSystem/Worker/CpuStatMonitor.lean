import MonitorSystem.Manager.MonitorInfo
import Mathlib.Algebra.BigOperators.Group.List.Basic
import Mathlib.Algebra.Order.BigOperators.Group.List
import Mathlib.Algebra.Order.Field.Basic
import Mathlib.Algebra.Order.Field.Rat
import Mathlib.Data.Rat.Cast.Order
import Mathlib.Tactic.FieldSimp
import Mathlib.Tactic.Linarith
import Mathlib.Tactic.Ring

/-!
# The shares of the processor time

`CpuStatMonitor::updateOnce` (`worker/src/monitor/CpuStatMonitor.cpp`) reads the time counters of
the processors, compares each of them with what it has read before, and publishes the shares of
the time that has gone by. An entry `all` is made of the sums over the processors that have been
read before.

The counters are unsigned numbers of 64 bits, and so are the sums. As long as no counter goes back
and the sums do not wrap, the shares of an entry are those of a distribution, and those of `all`
are the means of the others, weighted by the time that has gone by (`cpuStat_distribution`).
Doubles and floats are exact rationals here.
-/

namespace MonitorSystem

/-! ### Counters and sums -/

/-- What is left of a sum in 64 bits. -/
def u64 (n : ℕ) : ℕ := n % 2 ^ 64

theorem u64_of_lt {n : ℕ} (h : n < 2 ^ 64) : u64 n = n := Nat.mod_eq_of_lt h

/-- The counters of one processor. -/
structure CpuCounters where
  user : ℕ := 0
  nice : ℕ := 0
  system : ℕ := 0
  idle : ℕ := 0
  iowait : ℕ := 0
  irq : ℕ := 0
  softirq : ℕ := 0
  steal : ℕ := 0
  guest : ℕ := 0
  guestNice : ℕ := 0
  deriving DecidableEq, Repr, Inhabited

/-- `cpu_stat`: an entry of the shared memory. The first one without a name is the end. -/
structure KernelCpuStat where
  cpuName : String
  counters : CpuCounters
  deriving DecidableEq, Repr

/-- `CpuTotals`. -/
@[ext] structure CpuTotals where
  user : ℕ := 0
  nice : ℕ := 0
  system : ℕ := 0
  idle : ℕ := 0
  iowait : ℕ := 0
  irq : ℕ := 0
  softirq : ℕ := 0
  steal : ℕ := 0
  deriving DecidableEq, Repr, Inhabited

/-- The counters that are added up. -/
def CpuCounters.totals (c : CpuCounters) : CpuTotals :=
  ⟨c.user, c.nice, c.system, c.idle, c.iowait, c.irq, c.softirq, c.steal⟩

/-- `addKernelTotals`, and `addCachedTotals`. -/
def addTotals (total : CpuTotals) (stat : CpuCounters) : CpuTotals where
  user := u64 (total.user + stat.user)
  nice := u64 (total.nice + stat.nice)
  system := u64 (total.system + stat.system)
  idle := u64 (total.idle + stat.idle)
  iowait := u64 (total.iowait + stat.iowait)
  irq := u64 (total.irq + stat.irq)
  softirq := u64 (total.softirq + stat.softirq)
  steal := u64 (total.steal + stat.steal)

/-- `totalTime`. -/
def totalTime (t : CpuTotals) : ℕ :=
  u64 (t.user + t.nice + t.system + t.idle + t.iowait + t.irq + t.softirq + t.steal)

/-- `busyTime`. -/
def busyTime (t : CpuTotals) : ℕ :=
  u64 (t.user + t.nice + t.system + t.irq + t.softirq + t.steal)

/-- `setCpuStatPercentages`: the entry of a name, unless no time has gone by. -/
def setCpuStatPercentages (cpuName : String) (curr old : CpuTotals) : Option CpuStat :=
  let totalDelta : ℚ := (totalTime curr : ℚ) - totalTime old
  let percent : ℕ → ℕ → ℚ := fun c o => ((c : ℚ) - o) / totalDelta * 100
  if totalDelta ≤ 0 then none
  else some
    { cpuName
      cpuPercent := percent (busyTime curr) (busyTime old)
      usrPercent := percent curr.user old.user
      systemPercent := percent curr.system old.system
      nicePercent := percent curr.nice old.nice
      idlePercent := percent curr.idle old.idle
      ioWaitPercent := percent curr.iowait old.iowait
      irqPercent := percent curr.irq old.irq
      softIrqPercent := percent curr.softirq old.softirq }

/-! ### One sample -/

/-- `cpuStatMap_`. -/
abbrev CpuStatMap := String → Option CpuCounters

/-- The variables of the loop over the entries. -/
structure CpuStatLoop where
  map : CpuStatMap
  msgs : List CpuStat := []
  allCurr : CpuTotals := {}
  allOld : CpuTotals := {}
  hasAggregateBase : Bool := false

/-- **One round of the loop.** An entry without shares is removed again. -/
def CpuStatLoop.visit (st : CpuStatLoop) (stat : KernelCpuStat) : CpuStatLoop :=
  match st.map stat.cpuName with
  | none => { st with map := Function.update st.map stat.cpuName (some stat.counters) }
  | some old =>
    { map := Function.update st.map stat.cpuName (some stat.counters)
      msgs := st.msgs ++ (setCpuStatPercentages stat.cpuName (addTotals {} stat.counters)
        (addTotals {} old)).toList
      allCurr := addTotals st.allCurr stat.counters
      allOld := addTotals st.allOld old
      hasAggregateBase := true }

/-- `statCount`: how many entries are read. -/
def statCount : ℕ := 128

/-- The entries that the loop comes to. -/
def readStats (stats : List KernelCpuStat) : List KernelCpuStat :=
  (stats.take statCount).takeWhile fun stat => stat.cpuName ≠ ""

/-- **`updateOnce`**: the counters that are kept, and the entries that are published. Nothing is
done if the device cannot be opened or mapped. -/
def updateOnce (map : CpuStatMap) : Option (List KernelCpuStat) → CpuStatMap × List CpuStat
  | none => (map, [])
  | some stats =>
    let st := (readStats stats).foldl CpuStatLoop.visit { map }
    (st.map, st.msgs ++
      if st.hasAggregateBase then (setCpuStatPercentages "all" st.allCurr st.allOld).toList else [])

/-- The counters that are kept after some calls. -/
def mapAfter (samples : List (Option (List KernelCpuStat))) : CpuStatMap :=
  samples.foldl (fun map sample => (updateOnce map sample).1) fun _ => none

/-! ### Sums that do not wrap -/

namespace CpuTotals

instance : Zero CpuTotals := ⟨{}⟩

instance : Add CpuTotals :=
  ⟨fun a b => ⟨a.user + b.user, a.nice + b.nice, a.system + b.system, a.idle + b.idle,
    a.iowait + b.iowait, a.irq + b.irq, a.softirq + b.softirq, a.steal + b.steal⟩⟩

/-- Times are added counter by counter. -/
instance : AddCommMonoid CpuTotals where
  add_assoc a b c := by ext : 1 <;> exact Nat.add_assoc _ _ _
  zero_add a := by ext : 1 <;> exact Nat.zero_add _
  add_zero a := by ext : 1 <;> exact Nat.add_zero _
  add_comm a b := by ext : 1 <;> exact Nat.add_comm _ _
  nsmul := nsmulRec

/-- The time of all counters. -/
def total (t : CpuTotals) : ℕ :=
  t.user + t.nice + t.system + t.idle + t.iowait + t.irq + t.softirq + t.steal

/-- The time of those that do not wait. -/
def busy (t : CpuTotals) : ℕ := t.user + t.nice + t.system + t.irq + t.softirq + t.steal

/-- **A part of the time**: it is at most the whole, and it is added up. -/
structure IsPart (part : CpuTotals → ℕ) : Prop where
  le_total : ∀ t, part t ≤ t.total
  zero : part 0 = 0
  add : ∀ a b, part (a + b) = part a + part b

theorem isPart_total : IsPart total where
  le_total _ := le_rfl
  zero := rfl
  add a b := by
    change (_ + _) + (_ + _) + (_ + _) + (_ + _) + (_ + _) + (_ + _) + (_ + _) + (_ + _) = _
    simp only [total]
    omega

theorem isPart_busy : IsPart busy where
  le_total t := by simp only [busy, total]; omega
  zero := rfl
  add a b := by
    change (_ + _) + (_ + _) + (_ + _) + (_ + _) + (_ + _) + (_ + _) = _
    simp only [busy]
    omega

theorem IsPart.sum {part : CpuTotals → ℕ} (h : IsPart part) (l : List CpuTotals) :
    part l.sum = (l.map part).sum := by
  induction l with
  | nil => exact h.zero
  | cons t l ih => rw [List.sum_cons, List.map_cons, List.sum_cons, h.add, ih]

/-- One of the counters. -/
theorem isPart_counter :
    IsPart user ∧ IsPart system ∧ IsPart nice ∧ IsPart idle ∧ IsPart iowait ∧ IsPart irq ∧
      IsPart softirq := by
  refine ⟨⟨?_, rfl, fun _ _ => rfl⟩, ⟨?_, rfl, fun _ _ => rfl⟩, ⟨?_, rfl, fun _ _ => rfl⟩,
    ⟨?_, rfl, fun _ _ => rfl⟩, ⟨?_, rfl, fun _ _ => rfl⟩, ⟨?_, rfl, fun _ _ => rfl⟩,
    ⟨?_, rfl, fun _ _ => rfl⟩⟩
  all_goals
    intro t
    simp only [total]
    omega

theorem busy_add_waiting (t : CpuTotals) : t.busy + t.idle + t.iowait = t.total := by
  simp only [busy, total]
  omega

end CpuTotals

open CpuTotals

theorem totalTime_eq {t : CpuTotals} (h : t.total < 2 ^ 64) : totalTime t = t.total := u64_of_lt h

theorem busyTime_eq {t : CpuTotals} (h : t.total < 2 ^ 64) : busyTime t = t.busy :=
  u64_of_lt ((isPart_busy.le_total t).trans_lt h)

/-- Adding a sample without a wrap. -/
theorem addTotals_eq {t : CpuTotals} {c : CpuCounters} (h : (t + c.totals).total < 2 ^ 64) :
    addTotals t c = t + c.totals := by
  rw [isPart_total.add] at h
  simp only [total, CpuCounters.totals] at h
  ext : 1 <;> exact u64_of_lt (by omega)

theorem addTotals_zero {c : CpuCounters} (h : c.totals.total < 2 ^ 64) :
    addTotals {} c = c.totals := by
  have heq := addTotals_eq (t := 0) (c := c) (by rwa [zero_add])
  rwa [zero_add] at heq

/-- The entry of some time that has gone by. -/
def sharesOf (cpuName : String) (gone : CpuTotals) : CpuStat :=
  let percent : ℕ → ℚ := fun part => (part : ℚ) / gone.total * 100
  { cpuName
    cpuPercent := percent gone.busy
    usrPercent := percent gone.user
    systemPercent := percent gone.system
    nicePercent := percent gone.nice
    idlePercent := percent gone.idle
    ioWaitPercent := percent gone.iowait
    irqPercent := percent gone.irq
    softIrqPercent := percent gone.softirq }

/-- **What is published** are the shares of the time that has gone by, if there is any. -/
theorem setCpuStatPercentages_eq {cpuName : String} {old gone : CpuTotals}
    (h : (old + gone).total < 2 ^ 64) :
    setCpuStatPercentages cpuName (old + gone) old =
      if gone.total = 0 then none else some (sharesOf cpuName gone) := by
  have hold : old.total < 2 ^ 64 := by
    rw [isPart_total.add] at h
    omega
  have hdelta : (totalTime (old + gone) : ℚ) - totalTime old = gone.total := by
    rw [totalTime_eq h, totalTime_eq hold, isPart_total.add, Nat.cast_add, add_sub_cancel_left]
  have hpart : ∀ {part : CpuTotals → ℕ}, IsPart part →
      ((part (old + gone) : ℚ) - part old) = part gone := by
    intro part hpart
    rw [hpart.add, Nat.cast_add, add_sub_cancel_left]
  obtain ⟨huser, hsystem, hnice, hidle, hiowait, hirq, hsoftirq⟩ := isPart_counter
  simp only [setCpuStatPercentages, hdelta, busyTime_eq h, busyTime_eq hold, hpart isPart_busy,
    hpart huser, hpart hsystem, hpart hnice, hpart hidle, hpart hiowait, hpart hirq,
    hpart hsoftirq, sharesOf]
  have hsign : ((gone.total : ℚ) ≤ 0) ↔ gone.total = 0 := by
    rw [← Nat.cast_zero, Nat.cast_le, Nat.le_zero]
  simp only [hsign]

/-! ### The shares of an entry -/

/-- The published percentages. -/
def percentages : List (CpuStat → ℚ) :=
  [(·.cpuPercent), (·.usrPercent), (·.systemPercent), (·.nicePercent), (·.idlePercent),
    (·.ioWaitPercent), (·.irqPercent), (·.softIrqPercent)]

/-- Each of them is that of a part. -/
theorem exists_part {percentage : CpuStat → ℚ} (h : percentage ∈ percentages) :
    ∃ part : CpuTotals → ℕ, IsPart part ∧
      ∀ cpuName gone, percentage (sharesOf cpuName gone) = (part gone : ℚ) / gone.total * 100 := by
  obtain ⟨huser, hsystem, hnice, hidle, hiowait, hirq, hsoftirq⟩ := isPart_counter
  simp only [percentages, List.mem_cons, List.not_mem_nil, or_false] at h
  rcases h with rfl | rfl | rfl | rfl | rfl | rfl | rfl | rfl
  · exact ⟨_, isPart_busy, fun _ _ => rfl⟩
  · exact ⟨_, huser, fun _ _ => rfl⟩
  · exact ⟨_, hsystem, fun _ _ => rfl⟩
  · exact ⟨_, hnice, fun _ _ => rfl⟩
  · exact ⟨_, hidle, fun _ _ => rfl⟩
  · exact ⟨_, hiowait, fun _ _ => rfl⟩
  · exact ⟨_, hirq, fun _ _ => rfl⟩
  · exact ⟨_, hsoftirq, fun _ _ => rfl⟩

/-- **An entry is a distribution**: its percentages are between zero and a hundred, and the busy
time, the idle time and the time of waiting make the whole. -/
structure IsDistribution (msg : CpuStat) : Prop where
  range : ∀ percentage ∈ percentages, 0 ≤ percentage msg ∧ percentage msg ≤ 100
  sum : msg.cpuPercent + msg.idlePercent + msg.ioWaitPercent = 100

theorem isDistribution_sharesOf (cpuName : String) {gone : CpuTotals} (h : gone.total ≠ 0) :
    IsDistribution (sharesOf cpuName gone) := by
  have hpos : (0 : ℚ) < gone.total := Nat.cast_pos.mpr (Nat.pos_of_ne_zero h)
  refine ⟨fun percentage hmem => ?_, ?_⟩
  · obtain ⟨part, hpart, heq⟩ := exists_part hmem
    have hle : (part gone : ℚ) ≤ gone.total := Nat.cast_le.mpr (hpart.le_total gone)
    have hshare : (part gone : ℚ) / gone.total ≤ 1 := (div_le_one hpos).mpr hle
    have hshare' : 0 ≤ (part gone : ℚ) / gone.total := div_nonneg (Nat.cast_nonneg _) hpos.le
    rw [heq]
    constructor <;> linarith
  · have hwhole : (gone.busy : ℚ) + gone.idle + gone.iowait = gone.total := by
      exact_mod_cast gone.busy_add_waiting
    simp only [sharesOf]
    rw [← add_mul, ← add_mul, ← add_div, ← add_div, hwhole, div_self hpos.ne', one_mul]

theorem isDistribution_of_published {cpuName : String} {gone : CpuTotals} {msg : CpuStat}
    (h : (if gone.total = 0 then none else some (sharesOf cpuName gone)) = some msg) :
    IsDistribution msg := by
  split at h
  · cases h
  · next hne =>
    obtain rfl := Option.some.inj h
    exact isDistribution_sharesOf cpuName hne

/-! ### Processors that have been read before -/

/-- The entries that a call reads. -/
def readings : Option (List KernelCpuStat) → List KernelCpuStat
  | none => []
  | some stats => readStats stats

/-- A processor that has been read before, with its counters then and now. -/
structure Baseline where
  cpuName : String
  old : CpuCounters
  curr : CpuCounters
  deriving DecidableEq, Repr

/-- The entry that is published for it. -/
def Baseline.published (b : Baseline) : Option CpuStat :=
  setCpuStatPercentages b.cpuName (addTotals {} b.curr) (addTotals {} b.old)

/-- The time that has gone by. -/
def Baseline.delta (b : Baseline) : ℕ := b.curr.totals.total - b.old.totals.total

/-- **The processors with counters that are kept**, in the order in which they are read. -/
def baselines : CpuStatMap → List KernelCpuStat → List Baseline
  | _, [] => []
  | map, stat :: stats =>
    ((map stat.cpuName).map fun old => ⟨stat.cpuName, old, stat.counters⟩).toList ++
      baselines (Function.update map stat.cpuName (some stat.counters)) stats

/-- The counters that are kept after some entries. -/
def mapRead (map : CpuStatMap) (stats : List KernelCpuStat) : CpuStatMap :=
  stats.foldl (fun map stat => Function.update map stat.cpuName (some stat.counters)) map

/-- **What the loop comes to.** -/
theorem foldl_visit (st : CpuStatLoop) (stats : List KernelCpuStat) :
    stats.foldl CpuStatLoop.visit st =
      { map := mapRead st.map stats
        msgs := st.msgs ++ (baselines st.map stats).filterMap Baseline.published
        allCurr := ((baselines st.map stats).map (·.curr)).foldl addTotals st.allCurr
        allOld := ((baselines st.map stats).map (·.old)).foldl addTotals st.allOld
        hasAggregateBase := st.hasAggregateBase || !(baselines st.map stats).isEmpty } := by
  induction stats generalizing st with
  | nil => simp [mapRead, baselines]
  | cons stat stats ih =>
    rw [List.foldl_cons, ih]
    cases hold : st.map stat.cpuName with
    | none => simp [CpuStatLoop.visit, hold, baselines, mapRead]
    | some old =>
      cases hpublished : Baseline.published ⟨stat.cpuName, old, stat.counters⟩ with
      | none =>
        have hnone := hpublished
        rw [Baseline.published] at hnone
        simp [CpuStatLoop.visit, hold, baselines, mapRead, hpublished, hnone]
      | some msg =>
        have hsome := hpublished
        rw [Baseline.published] at hsome
        simp [CpuStatLoop.visit, hold, baselines, mapRead, hpublished, hsome]

/-- **What a call keeps and publishes.** -/
theorem updateOnce_eq (map : CpuStatMap) (sample : Option (List KernelCpuStat)) :
    updateOnce map sample =
      (mapRead map (readings sample),
        (baselines map (readings sample)).filterMap Baseline.published ++
          if baselines map (readings sample) = [] then []
          else (setCpuStatPercentages "all"
            (((baselines map (readings sample)).map (·.curr)).foldl addTotals {})
            (((baselines map (readings sample)).map (·.old)).foldl addTotals {})).toList) := by
  cases sample with
  | none => rfl
  | some stats =>
    rw [updateOnce, foldl_visit]
    by_cases hnil : baselines map (readStats stats) = []
    · simp [readings, hnil]
    · simp [readings, hnil]

/-! ### Counters that never go back -/

/-- No counter is less than it was. -/
structure CpuCounters.Le (old curr : CpuCounters) : Prop where
  user : old.user ≤ curr.user
  nice : old.nice ≤ curr.nice
  system : old.system ≤ curr.system
  idle : old.idle ≤ curr.idle
  iowait : old.iowait ≤ curr.iowait
  irq : old.irq ≤ curr.irq
  softirq : old.softirq ≤ curr.softirq
  steal : old.steal ≤ curr.steal

instance CpuCounters.decidableLe (old curr : CpuCounters) : Decidable (old.Le curr) :=
  decidable_of_iff (old.user ≤ curr.user ∧ old.nice ≤ curr.nice ∧ old.system ≤ curr.system ∧
      old.idle ≤ curr.idle ∧ old.iowait ≤ curr.iowait ∧ old.irq ≤ curr.irq ∧
      old.softirq ≤ curr.softirq ∧ old.steal ≤ curr.steal)
    ⟨fun ⟨h₁, h₂, h₃, h₄, h₅, h₆, h₇, h₈⟩ => ⟨h₁, h₂, h₃, h₄, h₅, h₆, h₇, h₈⟩,
      fun ⟨h₁, h₂, h₃, h₄, h₅, h₆, h₇, h₈⟩ => ⟨h₁, h₂, h₃, h₄, h₅, h₆, h₇, h₈⟩⟩

/-- What has been added since. -/
def Baseline.gone (b : Baseline) : CpuTotals where
  user := b.curr.user - b.old.user
  nice := b.curr.nice - b.old.nice
  system := b.curr.system - b.old.system
  idle := b.curr.idle - b.old.idle
  iowait := b.curr.iowait - b.old.iowait
  irq := b.curr.irq - b.old.irq
  softirq := b.curr.softirq - b.old.softirq
  steal := b.curr.steal - b.old.steal

theorem Baseline.add_gone {b : Baseline} (h : b.old.Le b.curr) :
    b.old.totals + b.gone = b.curr.totals := by
  obtain ⟨huser, hnice, hsystem, hidle, hiowait, hirq, hsoftirq, hsteal⟩ := h
  ext : 1
  exacts [Nat.add_sub_of_le huser, Nat.add_sub_of_le hnice, Nat.add_sub_of_le hsystem,
    Nat.add_sub_of_le hidle, Nat.add_sub_of_le hiowait, Nat.add_sub_of_le hirq,
    Nat.add_sub_of_le hsoftirq, Nat.add_sub_of_le hsteal]

theorem Baseline.delta_eq {b : Baseline} (h : b.old.Le b.curr) : b.delta = b.gone.total := by
  have hsum := congrArg total (b.add_gone h)
  rw [isPart_total.add] at hsum
  rw [Baseline.delta]
  omega

/-- **No counter of a processor ever goes back.** -/
def NeverDecrease (stats : List KernelCpuStat) : Prop :=
  stats.Pairwise fun a b => a.cpuName = b.cpuName → a.counters.Le b.counters

instance decidableNeverDecrease (stats : List KernelCpuStat) : Decidable (NeverDecrease stats) :=
  inferInstanceAs (Decidable (stats.Pairwise fun a b =>
    a.cpuName = b.cpuName → a.counters.Le b.counters))

/-- What is still to be read does not go back behind what is kept. -/
structure Ahead (map : CpuStatMap) (stats : List KernelCpuStat) : Prop where
  kept : ∀ stat ∈ stats, ∀ old ∈ map stat.cpuName, old.Le stat.counters
  never : NeverDecrease stats

theorem Ahead.visit {map : CpuStatMap} {stat : KernelCpuStat} {stats : List KernelCpuStat}
    (h : Ahead map (stat :: stats)) :
    Ahead (Function.update map stat.cpuName (some stat.counters)) stats := by
  obtain ⟨hfirst, hnever⟩ := List.pairwise_cons.mp h.never
  refine ⟨fun next hnext old hold => ?_, hnever⟩
  rcases eq_or_ne next.cpuName stat.cpuName with hname | hname
  · rw [hname, Function.update_self] at hold
    obtain rfl := Option.some.inj hold
    exact hfirst next hnext hname.symm
  · rw [Function.update_of_ne hname] at hold
    exact h.kept next (List.mem_cons_of_mem _ hnext) old hold

theorem Ahead.mapRead {map : CpuStatMap} {stats rest : List KernelCpuStat}
    (h : Ahead map (stats ++ rest)) : Ahead (MonitorSystem.mapRead map stats) rest := by
  induction stats generalizing map with
  | nil => exact h
  | cons stat stats ih => exact ih h.visit

/-- A processor that has been read before has not gone back. -/
theorem Ahead.le_of_mem {map : CpuStatMap} {stats : List KernelCpuStat} (h : Ahead map stats)
    {b : Baseline} (hb : b ∈ baselines map stats) : b.old.Le b.curr := by
  induction stats generalizing map with
  | nil => cases hb
  | cons stat stats ih =>
    rcases List.mem_append.mp hb with hb | hb
    · obtain ⟨old, hold, rfl⟩ := Option.map_eq_some_iff.mp (Option.mem_toList.mp hb)
      exact h.kept stat List.mem_cons_self old hold
    · exact ih h.visit hb

/-- **What is kept after some calls is behind what is read next.** -/
theorem ahead_mapAfter {samples : List (Option (List KernelCpuStat))} {rest : List KernelCpuStat}
    (h : NeverDecrease (samples.flatMap readings ++ rest)) : Ahead (mapAfter samples) rest := by
  have hfold : ∀ map : CpuStatMap,
      samples.foldl (fun map sample => (updateOnce map sample).1) map =
        mapRead map (samples.flatMap readings) := by
    clear h
    induction samples with
    | nil => exact fun map => rfl
    | cons sample samples ih =>
      intro map
      rw [List.foldl_cons, ih, updateOnce_eq, List.flatMap_cons, MonitorSystem.mapRead,
        MonitorSystem.mapRead, MonitorSystem.mapRead, List.foldl_append]
  rw [mapAfter, hfold]
  exact Ahead.mapRead ⟨fun _ _ _ hnone => (by cases hnone), h⟩

/-! ### The entry of all processors -/

/-- The counters of the processors are part of what is read. -/
theorem sum_baselines_le (map : CpuStatMap) (stats : List KernelCpuStat) :
    ((baselines map stats).map fun b => b.curr.totals.total).sum ≤
      (stats.map fun stat => stat.counters.totals.total).sum := by
  induction stats generalizing map with
  | nil => exact le_rfl
  | cons stat stats ih =>
    have := ih (Function.update map stat.cpuName (some stat.counters))
    cases hold : map stat.cpuName with
    | none =>
      simp only [baselines, hold, Option.map_none, Option.toList_none, List.nil_append,
        List.map_cons, List.sum_cons]
      omega
    | some old =>
      simp only [baselines, hold, Option.map_some, Option.toList_some, List.cons_append,
        List.nil_append, List.map_cons, List.sum_cons]
      omega

theorem foldl_addTotals {l : List CpuCounters} {t : CpuTotals}
    (h : t.total + (l.map fun c => c.totals.total).sum < 2 ^ 64) :
    l.foldl addTotals t = t + (l.map CpuCounters.totals).sum := by
  induction l generalizing t with
  | nil => exact (add_zero t).symm
  | cons c l ih =>
    rw [List.map_cons, List.sum_cons] at h
    have hadd : (t + c.totals).total = t.total + c.totals.total := isPart_total.add _ _
    rw [List.foldl_cons, addTotals_eq (by omega), ih (by omega), List.map_cons, List.sum_cons,
      add_assoc]

/-- What is published for a processor whose counters have not gone back. -/
theorem Baseline.published_eq {b : Baseline} (h : b.old.Le b.curr)
    (hlt : b.curr.totals.total < 2 ^ 64) :
    b.published = if b.gone.total = 0 then none else some (sharesOf b.cpuName b.gone) := by
  have hsum := b.add_gone h
  have hold : b.old.totals.total < 2 ^ 64 := by
    have htotal := congrArg total hsum
    rw [isPart_total.add] at htotal
    omega
  rw [Baseline.published, addTotals_zero hlt, addTotals_zero hold, ← hsum]
  exact setCpuStatPercentages_eq (by rwa [hsum])

/-- A percentage of a processor, or zero if none is published. -/
def Baseline.share (percentage : CpuStat → ℚ) (b : Baseline) : ℚ :=
  (b.published.map percentage).getD 0

/-- **The entry `all` is the weighted mean** of the entries of some processors: it is left out if
no time has gone by, and each of its percentages is the mean of theirs, weighted by the time that
has gone by. -/
structure IsWeightedMean (bases : List Baseline) (all : Option CpuStat) : Prop where
  omitted : all = none ↔ (bases.map Baseline.delta).sum = 0
  name : ∀ msg ∈ all, msg.cpuName = "all"
  mean : ∀ msg ∈ all, ∀ percentage ∈ percentages, percentage msg =
    (bases.map fun b => (b.delta : ℚ) * b.share percentage).sum / (bases.map Baseline.delta).sum

section Mean

variable {bases : List Baseline}

theorem weighted_sum {percentage : CpuStat → ℚ} {part : CpuTotals → ℕ} (hpart : IsPart part)
    (hshares : ∀ cpuName gone,
      percentage (sharesOf cpuName gone) = (part gone : ℚ) / gone.total * 100)
    (hle : ∀ b ∈ bases, b.old.Le b.curr) (hlt : ∀ b ∈ bases, b.curr.totals.total < 2 ^ 64) :
    (bases.map fun b => (b.delta : ℚ) * b.share percentage).sum =
      (part (bases.map Baseline.gone).sum : ℚ) * 100 := by
  induction bases with
  | nil => simp [hpart.zero]
  | cons b bases ih =>
    obtain ⟨hb, hle⟩ := List.forall_mem_cons.mp hle
    obtain ⟨hb', hlt⟩ := List.forall_mem_cons.mp hlt
    have hone : (b.delta : ℚ) * b.share percentage = (part b.gone : ℚ) * 100 := by
      rw [Baseline.share, b.published_eq hb hb', b.delta_eq hb]
      by_cases hzero : b.gone.total = 0
      · have hnone : part b.gone = 0 := Nat.le_zero.mp (hzero ▸ hpart.le_total _)
        rw [if_pos hzero, hzero, hnone, Nat.cast_zero, zero_mul, zero_mul]
      · have hne : (b.gone.total : ℚ) ≠ 0 := Nat.cast_ne_zero.mpr hzero
        rw [if_neg hzero, Option.map_some, Option.getD_some, hshares]
        field_simp
    rw [List.map_cons, List.sum_cons, List.map_cons, List.sum_cons, ih hle hlt, hpart.add,
      Nat.cast_add, hone, add_mul]

/-- The counters of now are those of then and what has been added. -/
theorem sum_curr_eq (hle : ∀ b ∈ bases, b.old.Le b.curr) :
    (bases.map (·.curr.totals)).sum =
      (bases.map (·.old.totals)).sum + (bases.map Baseline.gone).sum := by
  induction bases with
  | nil => rfl
  | cons b bases ih =>
    obtain ⟨hb, hle⟩ := List.forall_mem_cons.mp hle
    simp only [List.map_cons, List.sum_cons]
    rw [ih hle, ← b.add_gone hb]
    exact add_add_add_comm _ _ _ _

/-- **The entry of the sums** is that of the time that has gone by on all of them. -/
theorem all_eq_sharesOf (hle : ∀ b ∈ bases, b.old.Le b.curr)
    (hlt : (bases.map fun b => b.curr.totals.total).sum < 2 ^ 64) :
    setCpuStatPercentages "all" ((bases.map (·.curr)).foldl addTotals {})
        ((bases.map (·.old)).foldl addTotals {}) =
      if (bases.map Baseline.gone).sum.total = 0 then none
      else some (sharesOf "all" (bases.map Baseline.gone).sum) := by
  have hcurr : total (bases.map fun b => b.curr.totals).sum < 2 ^ 64 := by
    rw [isPart_total.sum, List.map_map]
    exact hlt
  have hgone := sum_curr_eq hle
  have hsum : ∀ f : Baseline → CpuCounters, (bases.map fun b => (f b).totals).sum.total < 2 ^ 64 →
      (bases.map f).foldl addTotals {} = (bases.map fun b => (f b).totals).sum := by
    intro f hf
    have hmap : (bases.map f).map CpuCounters.totals = bases.map fun b => (f b).totals :=
      List.map_map
    rw [isPart_total.sum, List.map_map] at hf
    have heq := foldl_addTotals (l := bases.map f) (t := 0) (by
      rw [isPart_total.zero, Nat.zero_add, List.map_map]
      exact hf)
    rwa [zero_add, hmap] at heq
  have hold : total (bases.map fun b => b.old.totals).sum < 2 ^ 64 := by
    rw [hgone, isPart_total.add] at hcurr
    exact (Nat.le_add_right _ _).trans_lt hcurr
  rw [hsum (·.curr) hcurr, hsum (·.old) hold, hgone]
  exact setCpuStatPercentages_eq (hgone ▸ hcurr)

/-- The time that has gone by on all of them. -/
theorem sum_delta_eq (hle : ∀ b ∈ bases, b.old.Le b.curr) :
    (bases.map Baseline.delta).sum = (bases.map Baseline.gone).sum.total := by
  rw [isPart_total.sum, List.map_map]
  exact congrArg List.sum (List.map_congr_left fun b hb => b.delta_eq (hle b hb))

theorem total_lt_of_mem (hlt : (bases.map fun b => b.curr.totals.total).sum < 2 ^ 64) {b : Baseline}
    (hb : b ∈ bases) : b.curr.totals.total < 2 ^ 64 :=
  (List.le_sum_of_mem (List.mem_map_of_mem hb)).trans_lt hlt

/-- **What the sums over the processors give.** -/
theorem isWeightedMean_all (hle : ∀ b ∈ bases, b.old.Le b.curr)
    (hlt : (bases.map fun b => b.curr.totals.total).sum < 2 ^ 64) :
    IsWeightedMean bases (setCpuStatPercentages "all" ((bases.map (·.curr)).foldl addTotals {})
      ((bases.map (·.old)).foldl addTotals {})) := by
  rw [all_eq_sharesOf hle hlt]
  refine ⟨?_, fun msg hmsg => ?_, fun msg hmsg percentage hpercentage => ?_⟩
  · rw [sum_delta_eq hle]
    split
    · next hzero => simp [hzero]
    · next hzero => simp [hzero]
  · split at hmsg
    · cases hmsg
    · obtain rfl := Option.some.inj hmsg
      rfl
  · obtain ⟨part, hpart, hshares⟩ := exists_part hpercentage
    split at hmsg
    · cases hmsg
    · obtain rfl := Option.some.inj hmsg
      rw [hshares, weighted_sum hpart hshares hle fun b hb => total_lt_of_mem hlt hb,
        sum_delta_eq hle]
      ring

end Mean

/-- **The published shares are a distribution, and those of `all` are weighted means.** For every
sequence of calls, if no counter of a processor ever goes back and the times that the last call
reads add up to less than 2^64: every entry of the last call is a distribution; there is one for
each processor that has been read before and for which time has gone by, in their order, and then
one for all of them, which is their mean weighted by that time. -/
theorem cpuStat_distribution {samples : List (Option (List KernelCpuStat))}
    {sample : Option (List KernelCpuStat)}
    (hnever : NeverDecrease ((samples ++ [sample]).flatMap readings))
    (hlt : ((readings sample).map fun stat => stat.counters.totals.total).sum < 2 ^ 64) :
    (∀ msg ∈ (updateOnce (mapAfter samples) sample).2, IsDistribution msg) ∧
      ∃ all, (updateOnce (mapAfter samples) sample).2 =
          (baselines (mapAfter samples) (readings sample)).filterMap Baseline.published ++
            all.toList ∧
        (∀ b ∈ baselines (mapAfter samples) (readings sample),
          b.published = none ↔ b.delta = 0) ∧
        IsWeightedMean (baselines (mapAfter samples) (readings sample)) all := by
  have hahead : Ahead (mapAfter samples) (readings sample) := by
    rw [List.flatMap_append, List.flatMap_singleton] at hnever
    exact ahead_mapAfter hnever
  rw [updateOnce_eq]
  have hsum := (sum_baselines_le (mapAfter samples) (readings sample)).trans_lt hlt
  have hle : ∀ b ∈ baselines (mapAfter samples) (readings sample), b.old.Le b.curr :=
    fun b hb => hahead.le_of_mem hb
  generalize baselines (mapAfter samples) (readings sample) = bases at hsum hle ⊢
  have hall : (if bases = [] then []
      else (setCpuStatPercentages "all" ((bases.map (·.curr)).foldl addTotals {})
        ((bases.map (·.old)).foldl addTotals {})).toList) =
      (setCpuStatPercentages "all" ((bases.map (·.curr)).foldl addTotals {})
        ((bases.map (·.old)).foldl addTotals {})).toList := by
    split
    · next hnil =>
      rw [all_eq_sharesOf hle hsum, hnil, List.map_nil, List.sum_nil, isPart_total.zero, if_pos rfl,
        Option.toList_none]
    · rfl
  simp only [hall]
  refine ⟨fun msg hmsg => ?_, _, rfl, fun b hb => ?_, isWeightedMean_all hle hsum⟩
  · rcases List.mem_append.mp hmsg with hmsg | hmsg
    · obtain ⟨b, hb, hpublished⟩ := List.mem_filterMap.mp hmsg
      rw [b.published_eq (hle b hb) (total_lt_of_mem hsum hb)] at hpublished
      exact isDistribution_of_published hpublished
    · rw [Option.mem_toList, all_eq_sharesOf hle hsum] at hmsg
      exact isDistribution_of_published hmsg
  · rw [b.published_eq (hle b hb) (total_lt_of_mem hsum hb), b.delta_eq (hle b hb)]
    split
    · next hzero => simp [hzero]
    · next hzero => simp [hzero]

/-- Two samples of two processors, of which the second one has not run. -/
def twoSamples : List (List KernelCpuStat) :=
  [[⟨"cpu0", { user := 5, idle := 10 }⟩, ⟨"cpu1", { idle := 7 }⟩, ⟨"", {}⟩],
    [⟨"cpu0", { user := 6, idle := 13 }⟩, ⟨"cpu1", { idle := 7 }⟩, ⟨"", {}⟩]]

theorem cpuStat_distribution_twoSamples :
    (updateOnce (mapAfter [twoSamples[0]?]) twoSamples[1]?).2.length = 2 ∧
      ∀ msg ∈ (updateOnce (mapAfter [twoSamples[0]?]) twoSamples[1]?).2, IsDistribution msg :=
  ⟨by decide +kernel, (cpuStat_distribution (by decide) (by decide)).1⟩

end MonitorSystem
