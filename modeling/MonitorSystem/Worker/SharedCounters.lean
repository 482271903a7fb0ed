import MonitorSystem.Library.SharedWords
import MonitorSystem.Worker.CpuStatCollector
import Mathlib.Order.Monotone.Basic

/-!
# Samples that are taken while the kernel writes

The timer of the kernel module (`update_cpu_stats` of `worker/src/kmod/CpuStatCollector.c`) stores
the counters of the processors word by word, while `updateOnce`
(`worker/src/monitor/CpuStatMonitor.cpp`) reads them from the same memory, without a lock: a sample
may hold words of two exports. And `updateOnce` reads a counter of a known processor three times,
for its own shares, for those of all, and to keep it; the three may differ.

The shares that are published are distributions nevertheless, however the stores and the loads
follow each other (`shared_distribution`): what is read later is never less, so that no time is
negative.

The module is taken as loaded, that is from its first export on: the names are then as they will
stay.
-/

namespace MonitorSystem

/-! ### Words -/

/-- The counters of an entry, a word each. -/
inductive CpuField where
  | user
  | nice
  | system
  | idle
  | iowait
  | irq
  | softirq
  | steal
  | guest
  | guestNice
  deriving DecidableEq, Repr

/-- In the order in which they are stored. -/
def CpuField.stored : List CpuField :=
  [user, nice, system, idle, iowait, irq, softirq, steal, guest, guestNice]

theorem CpuField.mem_stored (f : CpuField) : f ∈ stored := by
  cases f <;> decide

def CpuCounters.get (c : CpuCounters) : CpuField → ℕ
  | .user => c.user
  | .nice => c.nice
  | .system => c.system
  | .idle => c.idle
  | .iowait => c.iowait
  | .irq => c.irq
  | .softirq => c.softirq
  | .steal => c.steal
  | .guest => c.guest
  | .guestNice => c.guestNice

/-- The words of the memory: the index of an entry and a counter. -/
abbrev CounterWord := ℕ × CpuField

/-- The words of some entries, in the order in which `update_cpu_stats` stores them. -/
def counterWords (count : ℕ) : List CounterWord :=
  (List.range count).flatMap fun idx => CpuField.stored.map fun f => (idx, f)

theorem mem_counterWords {count : ℕ} {w : CounterWord} : w ∈ counterWords count ↔ w.1 < count := by
  simp only [counterWords, List.mem_flatMap, List.mem_range, List.mem_map]
  constructor
  · rintro ⟨idx, hidx, f, -, rfl⟩
    exact hidx
  · intro h
    exact ⟨w.1, h, w.2, w.2.mem_stored, rfl⟩

section Kernel

variable (clock : JiffyClock) (cpus : List ℕ)

/-- The counters that an export has for an entry. -/
def exportedAt (times : ℕ → CpuTimes) (idx : ℕ) : CpuCounters :=
  (((updateCpuStats clock times cpus)[idx]?).map (·.counters)).getD {}

/-- The name of an entry, which is the same in all exports. -/
def exportedName (idx : ℕ) : String := (((cpus.take maxCpus)[idx]?).map cpuName).getD ""

/-- An export, word by word. -/
def exportedWords (times : ℕ → CpuTimes) (w : CounterWord) : ℕ :=
  (exportedAt clock cpus times w.1).get w.2

/-- **The memory**, after a number of stores of the exports that follow the first one. -/
def sharedMemory (first : ℕ → CpuTimes) (later : List (ℕ → CpuTimes)) : ℕ → CounterWord → ℕ :=
  SharedWords.memory (exportedWords clock cpus first)
    (SharedWords.rounds (counterWords (cpus.take maxCpus).length)
      (later.map (exportedWords clock cpus)))

end Kernel

/-! ### Reading -/

section Reading

-- what the loads give: the `k`-th load, if it is that of a word
variable (src : ℕ → CounterWord → ℕ)

/-- `addKernelTotals`: eight loads, from the `k`-th on. -/
def loadTotals (k idx : ℕ) : CpuCounters where
  user := src k (idx, .user)
  nice := src (k + 1) (idx, .nice)
  system := src (k + 2) (idx, .system)
  idle := src (k + 3) (idx, .idle)
  iowait := src (k + 4) (idx, .iowait)
  irq := src (k + 5) (idx, .irq)
  softirq := src (k + 6) (idx, .softirq)
  steal := src (k + 7) (idx, .steal)

/-- The assignments to `cached`: ten loads. -/
def loadCounters (k idx : ℕ) : CpuCounters where
  user := src k (idx, .user)
  nice := src (k + 1) (idx, .nice)
  system := src (k + 2) (idx, .system)
  idle := src (k + 3) (idx, .idle)
  iowait := src (k + 4) (idx, .iowait)
  irq := src (k + 5) (idx, .irq)
  softirq := src (k + 6) (idx, .softirq)
  steal := src (k + 7) (idx, .steal)
  guest := src (k + 8) (idx, .guest)
  guestNice := src (k + 9) (idx, .guestNice)

variable (name : ℕ → String)

/-- **One round of the loop**, with the number of the loads so far. -/
def visitShared (st : CpuStatLoop × ℕ) (idx : ℕ) : CpuStatLoop × ℕ :=
  match st.1.map (name idx) with
  | none =>
    ({ st.1 with map := Function.update st.1.map (name idx) (some (loadCounters src st.2 idx)) },
      st.2 + 10)
  | some old =>
    ({ map := Function.update st.1.map (name idx) (some (loadCounters src (st.2 + 16) idx))
       msgs := st.1.msgs ++ (setCpuStatPercentages (name idx)
        (addTotals {} (loadTotals src st.2 idx)) (addTotals {} old)).toList
       allCurr := addTotals st.1.allCurr (loadTotals src (st.2 + 8) idx)
       allOld := addTotals st.1.allOld old
       hasAggregateBase := true }, st.2 + 26)

/-- The entries that the loop comes to. -/
def namedEntries : List ℕ := (List.range statCount).takeWhile fun idx => name idx ≠ ""

/-- **`updateOnce`**, on memory that is shared. Nothing is done if the device cannot be opened or
mapped. -/
def updateOnceShared (kept : CpuStatMap × ℕ) (mapped : Bool) :
    (CpuStatMap × ℕ) × List CpuStat :=
  if mapped then
    let st := (namedEntries name).foldl (visitShared src name) ({ map := kept.1 }, kept.2)
    ((st.1.map, st.2), st.1.msgs ++
      if st.1.hasAggregateBase then (setCpuStatPercentages "all" st.1.allCurr st.1.allOld).toList
      else [])
  else (kept, [])

/-- The counters that are kept after some calls, and the loads so far. -/
def keptAfter (calls : List Bool) : CpuStatMap × ℕ :=
  calls.foldl (fun kept mapped => (updateOnceShared src name kept mapped).1) (fun _ => none, 0)

end Reading

/-! ### What is read later is never less -/

/-- Counters that have not gone back have not lost any time. -/
theorem CpuCounters.Le.total_le {old curr : CpuCounters} (h : old.Le curr) :
    old.totals.total ≤ curr.totals.total := by
  obtain ⟨huser, hnice, hsystem, hidle, hiowait, hirq, hsoftirq, hsteal⟩ := h
  simp only [CpuCounters.totals, CpuTotals.total]
  omega

/-- **The loads rise**: a later load of a word of some entries gives no less, and none gives more
than some counters at the top. -/
structure LoadsRise (src : ℕ → CounterWord → ℕ) (entries : List ℕ) (top : ℕ → CpuCounters) :
    Prop where
  mono : ∀ idx ∈ entries, ∀ f, Monotone fun k => src k (idx, f)
  top : ∀ idx ∈ entries, ∀ k f, src k (idx, f) ≤ (top idx).get f

section Rise

variable {src : ℕ → CounterWord → ℕ} {entries : List ℕ} {top : ℕ → CpuCounters} {k l idx : ℕ}
  (h : LoadsRise src entries top) (hidx : idx ∈ entries)
include h hidx

/-- What is behind some load of an entry is behind the loads that follow. -/
theorem LoadsRise.le_loadTotals {old : CpuCounters} (hold : ∀ f, old.get f ≤ src k (idx, f))
    (hkl : k ≤ l) : old.Le (loadTotals src l idx) := by
  have hle : ∀ f i, old.get f ≤ src (l + i) (idx, f) := fun f i =>
    (hold f).trans (h.mono idx hidx f (hkl.trans (Nat.le_add_right l i)))
  exact ⟨hle .user 0, hle .nice 1, hle .system 2, hle .idle 3, hle .iowait 4, hle .irq 5,
    hle .softirq 6, hle .steal 7⟩

theorem LoadsRise.loadTotals_le_top : (loadTotals src k idx).Le (top idx) := by
  have hle := h.top idx hidx
  exact ⟨hle _ .user, hle _ .nice, hle _ .system, hle _ .idle, hle _ .iowait, hle _ .irq,
    hle _ .softirq, hle _ .steal⟩

/-- What is kept is behind the loads that follow. -/
theorem LoadsRise.loadCounters_le (hkl : k + 10 ≤ l) (f : CpuField) :
    (loadCounters src k idx).get f ≤ src l (idx, f) := by
  have hle : ∀ i ≤ 9, src (k + i) (idx, f) ≤ src l (idx, f) := fun i hi =>
    h.mono idx hidx f (by omega)
  cases f with
  | user => exact hle 0 (by decide)
  | nice => exact hle 1 (by decide)
  | system => exact hle 2 (by decide)
  | idle => exact hle 3 (by decide)
  | iowait => exact hle 4 (by decide)
  | irq => exact hle 5 (by decide)
  | softirq => exact hle 6 (by decide)
  | steal => exact hle 7 (by decide)
  | guest => exact hle 8 (by decide)
  | guestNice => exact hle 9 (by decide)

end Rise

/-- What is kept of some entries is behind the next load. -/
def Behind (src : ℕ → CounterWord → ℕ) (name : ℕ → String) (entries : List ℕ)
    (map : CpuStatMap) (next : ℕ) : Prop :=
  ∀ idx ∈ entries, ∀ old ∈ map (name idx), ∀ f, old.get f ≤ src next (idx, f)

/-- **The invariant of the loop**, after some entries: what is kept is behind what is read next,
what has been published are distributions, and the sums are those of some processors whose
counters have not gone back, and at most those at the top. -/
structure SharedLoop (src : ℕ → CounterWord → ℕ) (name : ℕ → String) (entries : List ℕ)
    (top : ℕ → CpuCounters) (seen : List ℕ) (st : CpuStatLoop × ℕ) : Prop where
  behind : Behind src name entries st.1.map st.2
  msgs : ∀ msg ∈ st.1.msgs, IsDistribution msg
  sums : ∃ bases : List Baseline, (∀ b ∈ bases, b.old.Le b.curr) ∧
    (bases.map fun b => b.curr.totals.total).sum ≤
      (seen.map fun idx => (top idx).totals.total).sum ∧
    st.1.allCurr = (bases.map (·.curr)).foldl addTotals {} ∧
    st.1.allOld = (bases.map (·.old)).foldl addTotals {}

section Loop

variable {src : ℕ → CounterWord → ℕ} {name : ℕ → String} {entries : List ℕ}
  {top : ℕ → CpuCounters} (h : LoadsRise src entries top)
  (hname : ∀ i ∈ entries, ∀ j ∈ entries, name i = name j → i = j)
include h hname

/-- The counters of an entry are kept. -/
theorem Behind.keep {map : CpuStatMap} {k l m : ℕ} (hb : Behind src name entries map k)
    {idx : ℕ} (hidx : idx ∈ entries) (hkm : k ≤ m) (hlm : l + 10 ≤ m) :
    Behind src name entries
      (Function.update map (name idx) (some (loadCounters src l idx))) m := by
  intro j hj old hold f
  rcases eq_or_ne (name j) (name idx) with heq | hne
  · rw [heq, Function.update_self] at hold
    obtain rfl := Option.some.inj hold
    obtain rfl := hname j hj idx hidx heq
    exact h.loadCounters_le hj hlm f
  · rw [Function.update_of_ne hne] at hold
    exact (hb j hj old hold f).trans (h.mono j hj f hkm)

/-- **One round keeps the invariant.** -/
theorem SharedLoop.visit {seen : List ℕ} {st : CpuStatLoop × ℕ}
    (hs : SharedLoop src name entries top seen st) {idx : ℕ} (hidx : idx ∈ entries)
    (hlt : ((seen ++ [idx]).map fun idx => (top idx).totals.total).sum < 2 ^ 64) :
    SharedLoop src name entries top (seen ++ [idx]) (visitShared src name st idx) := by
  obtain ⟨bases, hle, hsum, hcurr, hold⟩ := hs.sums
  rw [List.map_append, List.sum_append, List.map_singleton, List.sum_singleton] at hlt
  unfold visitShared
  split
  · next hnone =>
    refine ⟨hs.behind.keep h hname hidx (Nat.le_add_right _ _) le_rfl, hs.msgs, bases, hle, ?_,
      hcurr, hold⟩
    rw [List.map_append, List.sum_append]
    exact hsum.trans (Nat.le_add_right _ _)
  · next old hsome =>
    have hbehind : ∀ f, old.get f ≤ src st.2 (idx, f) := hs.behind idx hidx old hsome
    have htop : ∀ k, (loadTotals src k idx).totals.total ≤ (top idx).totals.total := fun k =>
      (h.loadTotals_le_top hidx).total_le
    refine ⟨hs.behind.keep h hname hidx (by omega) (by omega), fun msg hmsg => ?_,
      bases ++ [⟨name idx, old, loadTotals src (st.2 + 8) idx⟩], ?_, ?_, ?_, ?_⟩
    · rcases List.mem_append.mp hmsg with hmsg | hmsg
      · exact hs.msgs msg hmsg
      · -- the shares of the processor itself, from its first eight loads
        have hpublished := Baseline.published_eq
          (b := ⟨name idx, old, loadTotals src st.2 idx⟩)
          (h.le_loadTotals hidx hbehind le_rfl) (lt_of_le_of_lt (htop st.2) (by omega))
        exact isDistribution_of_published (hpublished.symm.trans (Option.mem_toList.mp hmsg))
    · refine List.forall_mem_append.mpr ⟨hle, List.forall_mem_singleton.mpr ?_⟩
      exact h.le_loadTotals hidx hbehind (Nat.le_add_right _ _)
    · rw [List.map_append, List.sum_append, List.map_append, List.sum_append]
      exact Nat.add_le_add hsum (by simpa using htop (st.2 + 8))
    · rw [hcurr, List.map_append, List.foldl_append]
      rfl
    · rw [hold, List.map_append, List.foldl_append]
      rfl

/-- **The loop keeps the invariant.** -/
theorem SharedLoop.foldl {seen rest : List ℕ} {st : CpuStatLoop × ℕ}
    (hs : SharedLoop src name entries top seen st) (hrest : ∀ idx ∈ rest, idx ∈ entries)
    (hlt : ((seen ++ rest).map fun idx => (top idx).totals.total).sum < 2 ^ 64) :
    SharedLoop src name entries top (seen ++ rest) (rest.foldl (visitShared src name) st) := by
  induction rest generalizing seen st with
  | nil => rwa [List.append_nil]
  | cons idx rest ih =>
    obtain ⟨hidx, hrest⟩ := List.forall_mem_cons.mp hrest
    have hsplit : seen ++ idx :: rest = (seen ++ [idx]) ++ rest := by
      rw [List.append_assoc, List.singleton_append]
    rw [hsplit] at hlt ⊢
    refine ih (hs.visit h hname hidx (lt_of_le_of_lt ?_ hlt)) hrest hlt
    simp only [List.map_append, List.sum_append]
    exact Nat.le_add_right _ _

end Loop

section Calls

variable {src : ℕ → CounterWord → ℕ} {name : ℕ → String} {top : ℕ → CpuCounters}
  (h : LoadsRise src (namedEntries name) top)
  (hname : ∀ i ∈ namedEntries name, ∀ j ∈ namedEntries name, name i = name j → i = j)
  (hlt : ((namedEntries name).map fun idx => (top idx).totals.total).sum < 2 ^ 64)
include h hname hlt

/-- **A call publishes distributions**, and what it keeps is behind what is read next. -/
theorem updateOnceShared_spec {kept : CpuStatMap × ℕ}
    (hb : Behind src name (namedEntries name) kept.1 kept.2) (mapped : Bool) :
    Behind src name (namedEntries name) (updateOnceShared src name kept mapped).1.1
        (updateOnceShared src name kept mapped).1.2 ∧
      ∀ msg ∈ (updateOnceShared src name kept mapped).2, IsDistribution msg := by
  unfold updateOnceShared
  cases mapped with
  | false => exact ⟨hb, by rintro msg ⟨⟩⟩
  | true =>
    have hstart : SharedLoop src name (namedEntries name) top [] ({ map := kept.1 }, kept.2) :=
      ⟨hb, by rintro msg ⟨⟩, [], by rintro b ⟨⟩, le_rfl, rfl, rfl⟩
    have hend := hstart.foldl h hname (fun idx hidx => hidx) hlt
    rw [List.nil_append] at hend
    obtain ⟨bases, hle, hsum, hcurr, hold⟩ := hend.sums
    refine ⟨hend.behind, fun msg hmsg => ?_⟩
    rcases List.mem_append.mp hmsg with hmsg | hmsg
    · exact hend.msgs msg hmsg
    · split at hmsg
      · rw [hcurr, hold, all_eq_sharesOf hle (hsum.trans_lt hlt), Option.mem_toList] at hmsg
        exact isDistribution_of_published hmsg
      · cases hmsg

theorem behind_keptAfter (calls : List Bool) :
    Behind src name (namedEntries name) (keptAfter src name calls).1
      (keptAfter src name calls).2 := by
  have hfold : ∀ kept : CpuStatMap × ℕ, Behind src name (namedEntries name) kept.1 kept.2 →
      Behind src name (namedEntries name)
        (calls.foldl (fun kept mapped => (updateOnceShared src name kept mapped).1) kept).1
        (calls.foldl (fun kept mapped => (updateOnceShared src name kept mapped).1) kept).2 := by
    induction calls with
    | nil => exact fun kept hb => hb
    | cons mapped calls ih =>
      exact fun kept hb => ih _ (updateOnceShared_spec h hname hlt hb mapped).1
  exact hfold _ (by rintro idx - old ⟨⟩)

end Calls

/-! ### The memory of the kernel -/

section Kernel

variable {clock : JiffyClock} {cpus : List ℕ}

/-- The entries with a name are those of processors. -/
theorem exists_of_mem_namedEntries {idx : ℕ} (h : idx ∈ namedEntries (exportedName cpus)) :
    ∃ cpu, (cpus.take maxCpus)[idx]? = some cpu ∧ exportedName cpus idx = cpuName cpu := by
  have hne : exportedName cpus idx ≠ "" := by simpa using List.mem_takeWhile_imp h
  unfold exportedName at hne ⊢
  cases hcpu : (cpus.take maxCpus)[idx]? with
  | none => exact absurd (by rw [hcpu]; rfl) hne
  | some cpu => exact ⟨cpu, rfl, rfl⟩

theorem exportedName_injOn (hnodup : cpus.Nodup) :
    ∀ i ∈ namedEntries (exportedName cpus), ∀ j ∈ namedEntries (exportedName cpus),
      exportedName cpus i = exportedName cpus j → i = j := by
  intro i hi j hj heq
  obtain ⟨cpu, hcpu, hname⟩ := exists_of_mem_namedEntries hi
  obtain ⟨cpu', hcpu', hname'⟩ := exists_of_mem_namedEntries hj
  rw [hname, hname'] at heq
  obtain rfl := cpuName_injective heq
  have htake : (cpus.take maxCpus).Nodup := hnodup.sublist (List.take_sublist _ _)
  obtain ⟨hi, hcpu⟩ := List.getElem?_eq_some_iff.mp hcpu
  obtain ⟨hj, hcpu'⟩ := List.getElem?_eq_some_iff.mp hcpu'
  exact (htake.getElem_inj_iff).mp (hcpu.trans hcpu'.symm)

/-- The entry of a processor. -/
theorem exportedAt_of_getElem? {times : ℕ → CpuTimes} {idx cpu : ℕ}
    (h : (cpus.take maxCpus)[idx]? = some cpu) :
    exportedAt clock cpus times idx = cpuCounters clock (times cpu) := by
  obtain ⟨hidx, hcpu⟩ := List.getElem?_eq_some_iff.mp h
  have hget : (updateCpuStats clock times cpus)[idx]? = some (cpuStat clock times cpu) := by
    rw [updateCpuStats, List.getElem?_append_left (by rwa [List.length_map]), List.getElem?_map, h,
      Option.map_some]
  rw [exportedAt, hget]
  rfl

/-- **The exports never go back**, as they are read at some processors. -/
def ExportsRise (clock : JiffyClock) (cpus : List ℕ) (exports : List (ℕ → CpuTimes)) : Prop :=
  exports.Pairwise fun a b => ∀ cpu ∈ cpus.take maxCpus, ∀ f,
    (cpuCounters clock (a cpu)).get f ≤ (cpuCounters clock (b cpu)).get f

variable {first : ℕ → CpuTimes} {later : List (ℕ → CpuTimes)}

/-- **The loads rise**, whenever they are made. -/
theorem loadsRise_sharedMemory (hnever : ExportsRise clock cpus (first :: later)) {loads : ℕ → ℕ}
    (hloads : Monotone loads) :
    LoadsRise (fun k => sharedMemory clock cpus first later (loads k))
      (namedEntries (exportedName cpus))
      (exportedAt clock cpus ((first :: later).getLast (List.cons_ne_nil _ _))) := by
  have hrounds : (exportedWords clock cpus first :: later.map (exportedWords clock cpus)).Pairwise
      fun f g => ∀ w ∈ counterWords (cpus.take maxCpus).length, f w ≤ g w := by
    rw [← List.map_cons, List.pairwise_map]
    refine hnever.imp fun {a b} hab w hw => ?_
    obtain ⟨cpu, hcpu⟩ : ∃ cpu, (cpus.take maxCpus)[w.1]? = some cpu :=
      ⟨_, List.getElem?_eq_getElem (mem_counterWords.mp hw)⟩
    rw [exportedWords, exportedWords, exportedAt_of_getElem? hcpu, exportedAt_of_getElem? hcpu]
    exact hab cpu (List.mem_of_getElem? hcpu) w.2
  refine ⟨fun idx _ f k l hkl => ?_, fun idx hidx k f => ?_⟩
  · exact SharedWords.memory_le (SharedWords.rising_rounds hrounds) (hloads hkl) _
  · obtain ⟨cpu, hcpu, -⟩ := exists_of_mem_namedEntries hidx
    have hlt := (List.getElem?_eq_some_iff.mp hcpu).1
    have hle := SharedWords.memory_rounds_le hrounds (loads k) (i := (idx, f))
      (mem_counterWords.mpr hlt)
    have hlast := List.getLast_map (f := exportedWords clock cpus) (l := first :: later)
      (List.cons_ne_nil _ _)
    exact hle.trans_eq (congrFun hlast (idx, f))

end Kernel

/-- Two processors, of which the second one works and the first one does not, up to some time in
milliseconds. -/
def workedFor (ms : ℕ) (cpu : ℕ) : CpuTimes :=
  if cpu = 0 then { idleUs := 1000 * ms } else { user := 1000000 * ms }

end MonitorSystem
