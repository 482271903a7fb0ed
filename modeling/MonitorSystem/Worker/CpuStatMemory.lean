import MonitorSystem.Library.Layout
import MonitorSystem.Worker.CpuStatCollector

/-!
# The memory that the kernel module shares

`update_cpu_stats` (`worker/src/kmod/CpuStatCollector.c`) writes its entries into pages that user
programs map: 256 of `struct cpu_stat`, each of them a name of 16 bytes and ten counters of eight.
`CpuStatMonitor` (`worker/src/monitor/CpuStatMonitor.cpp`) takes what it has mapped as an array of
the same `struct`, and so finds the entries as they have been written, whatever the memory has
held before (`readStats_mapped`).
-/

namespace MonitorSystem

/-! ### The layout -/

/-- `sizeof(struct cpu_stat)`, and the size of the name at its beginning. -/
def statSize : ℕ := 96

def nameSize : ℕ := 16

/-- The counters of an entry, in their order. -/
def counterBytes (c : CpuCounters) : List UInt8 :=
  [c.user, c.nice, c.system, c.idle, c.iowait, c.irq, c.softirq, c.steal, c.guest,
    c.guestNice].flatMap (Layout.toBytes 8)

/-- The characters of a name, which are letters and digits. -/
def nameBytes (name : String) : List UInt8 := name.toList.map fun c => UInt8.ofNat c.toNat

/-- An entry: `snprintf` into the name, and the counters after it. -/
def writeStat (mem : List UInt8) (idx : ℕ) (stat : KernelCpuStat) : List UInt8 :=
  Layout.store
    (Layout.store mem (statSize * idx) (Layout.printed nameSize (nameBytes stat.cpuName)))
    (statSize * idx + nameSize) (counterBytes stat.counters)

/-- The loop over the processors, from some index on. The name of the entry after the last one is
made empty, if there is room for it. -/
def writeStats (mem : List UInt8) (idx : ℕ) : List KernelCpuStat → List UInt8
  | [] => if idx < maxCpus then Layout.store mem (statSize * idx) [0] else mem
  | stat :: stats => writeStats (writeStat mem idx stat) (idx + 1) stats

/-- **`update_cpu_stats`**, on the memory. -/
def updateMemory (clock : JiffyClock) (times : ℕ → CpuTimes) (cpus : List ℕ) (mem : List UInt8) :
    List UInt8 :=
  writeStats mem 0 ((cpus.take maxCpus).map (cpuStat clock times))

/-- `PAGE_ALIGN`. -/
def pageAlign (size : ℕ) : ℕ := (size + 4095) / 4096 * 4096

/-- `data_size`. -/
def dataSize : ℕ := pageAlign (statSize * maxCpus)

/-- The memory when the module has been loaded: the pages are empty. -/
def zeroed : List UInt8 := List.replicate dataSize 0

/-- The counters in the bytes of an entry. -/
def readCounters (bytes : List UInt8) : CpuCounters where
  user := Layout.ofBytes (Layout.load bytes 0 8)
  nice := Layout.ofBytes (Layout.load bytes 8 8)
  system := Layout.ofBytes (Layout.load bytes 16 8)
  idle := Layout.ofBytes (Layout.load bytes 24 8)
  iowait := Layout.ofBytes (Layout.load bytes 32 8)
  irq := Layout.ofBytes (Layout.load bytes 40 8)
  softirq := Layout.ofBytes (Layout.load bytes 48 8)
  steal := Layout.ofBytes (Layout.load bytes 56 8)
  guest := Layout.ofBytes (Layout.load bytes 64 8)
  guestNice := Layout.ofBytes (Layout.load bytes 72 8)

/-- A name in some bytes. -/
def readName (bytes : List UInt8) : String :=
  String.ofList ((Layout.text bytes).map fun b => Char.ofNat b.toNat)

/-- An entry of the mapped array. -/
def readStat (mem : List UInt8) (idx : ℕ) : KernelCpuStat where
  cpuName := readName (Layout.load mem (statSize * idx) nameSize)
  counters := readCounters (Layout.load mem (statSize * idx + nameSize) (statSize - nameSize))

/-- The mapped array, as `CpuStatMonitor` takes it. -/
def mappedStats (mem : List UInt8) : List KernelCpuStat := (List.range statCount).map (readStat mem)

/-! ### One entry -/

/-- The counters of an entry hold 64 bits. -/
structure CpuCounters.Fits (c : CpuCounters) : Prop where
  user : c.user < 2 ^ 64
  nice : c.nice < 2 ^ 64
  system : c.system < 2 ^ 64
  idle : c.idle < 2 ^ 64
  iowait : c.iowait < 2 ^ 64
  irq : c.irq < 2 ^ 64
  softirq : c.softirq < 2 ^ 64
  steal : c.steal < 2 ^ 64
  guest : c.guest < 2 ^ 64
  guestNice : c.guestNice < 2 ^ 64

theorem length_counterBytes (c : CpuCounters) :
    (counterBytes c).length = statSize - nameSize := by
  simp [counterBytes, statSize, nameSize]

theorem readCounters_counterBytes {c : CpuCounters} (h : c.Fits) :
    readCounters (counterBytes c) = c := by
  have hread : readCounters (counterBytes c) =
      ⟨Layout.ofBytes (Layout.toBytes 8 c.user), Layout.ofBytes (Layout.toBytes 8 c.nice),
        Layout.ofBytes (Layout.toBytes 8 c.system), Layout.ofBytes (Layout.toBytes 8 c.idle),
        Layout.ofBytes (Layout.toBytes 8 c.iowait), Layout.ofBytes (Layout.toBytes 8 c.irq),
        Layout.ofBytes (Layout.toBytes 8 c.softirq), Layout.ofBytes (Layout.toBytes 8 c.steal),
        Layout.ofBytes (Layout.toBytes 8 c.guest),
        Layout.ofBytes (Layout.toBytes 8 c.guestNice)⟩ := rfl
  rw [hread, Layout.ofBytes_toBytes h.user, Layout.ofBytes_toBytes h.nice,
    Layout.ofBytes_toBytes h.system, Layout.ofBytes_toBytes h.idle,
    Layout.ofBytes_toBytes h.iowait, Layout.ofBytes_toBytes h.irq,
    Layout.ofBytes_toBytes h.softirq, Layout.ofBytes_toBytes h.steal,
    Layout.ofBytes_toBytes h.guest, Layout.ofBytes_toBytes h.guestNice]

section Entry

variable {mem : List UInt8} {idx : ℕ} (stat : KernelCpuStat)

/-- An entry ends where the next one begins. -/
theorem statSize_mul_succ (idx : ℕ) :
    statSize * (idx + 1) = statSize * idx + nameSize + (statSize - nameSize) := rfl

theorem length_printed_name (name : String) :
    (Layout.printed nameSize (nameBytes name)).length ≤ nameSize :=
  Layout.length_printed_le (by decide) _

/-- There is room for the name, and for the counters. -/
theorem room_writeStat (h : statSize * (idx + 1) ≤ mem.length) :
    statSize * idx + (Layout.printed nameSize (nameBytes stat.cpuName)).length ≤ mem.length ∧
      statSize * idx + nameSize + (counterBytes stat.counters).length ≤ mem.length := by
  have hname := length_printed_name stat.cpuName
  rw [statSize_mul_succ] at h
  rw [length_counterBytes]
  omega

theorem length_writeStat (h : statSize * (idx + 1) ≤ mem.length) :
    (writeStat mem idx stat).length = mem.length := by
  obtain ⟨hname, hcounters⟩ := room_writeStat stat h
  rw [writeStat, Layout.length_store, Layout.length_store hname]
  rwa [Layout.length_store hname]

/-- **The other entries are not touched.** -/
theorem load_writeStat_of_disjoint (h : statSize * (idx + 1) ≤ mem.length) {start count : ℕ}
    (hdisjoint : start + count ≤ statSize * idx ∨ statSize * (idx + 1) ≤ start) :
    Layout.load (writeStat mem idx stat) start count = Layout.load mem start count := by
  obtain ⟨hname, hcounters⟩ := room_writeStat stat h
  have hlength := length_printed_name stat.cpuName
  rw [statSize_mul_succ] at hdisjoint
  rw [writeStat, Layout.load_store_of_disjoint, Layout.load_store_of_disjoint hname]
  · omega
  · rwa [Layout.length_store hname]
  · rw [length_counterBytes]
    omega

/-- The name of an entry is written over the one before. -/
theorem load_name_writeStat (h : statSize * (idx + 1) ≤ mem.length) :
    Layout.load (writeStat mem idx stat) (statSize * idx) nameSize =
      Layout.printed nameSize (nameBytes stat.cpuName) ++
        (Layout.load mem (statSize * idx) nameSize).drop
          (Layout.printed nameSize (nameBytes stat.cpuName)).length := by
  obtain ⟨hname, hcounters⟩ := room_writeStat stat h
  rw [writeStat, Layout.load_store_of_disjoint (by rwa [Layout.length_store hname]) (.inl le_rfl)]
  exact Layout.load_store_append hname (length_printed_name _)

theorem load_counters_writeStat (h : statSize * (idx + 1) ≤ mem.length) :
    Layout.load (writeStat mem idx stat) (statSize * idx + nameSize) (statSize - nameSize) =
      counterBytes stat.counters := by
  obtain ⟨hname, hcounters⟩ := room_writeStat stat h
  rw [writeStat, ← length_counterBytes stat.counters]
  exact Layout.load_store (by rwa [Layout.length_store hname])

end Entry

/-! ### The array -/

/-- An entry that its field of the memory can hold. -/
structure KernelCpuStat.Fits (stat : KernelCpuStat) : Prop where
  chars : ∀ c ∈ stat.cpuName.toList, 0 < c.toNat ∧ c.toNat < 256
  length : stat.cpuName.toList.length < nameSize
  counters : stat.counters.Fits

theorem toNat_nameByte {c : Char} (h : c.toNat < 256) :
    (UInt8.ofNat c.toNat).toNat = c.toNat := by
  rw [UInt8.toNat_ofNat', Nat.mod_eq_of_lt h]

/-- A name that fits is read back. -/
theorem readName_printed {stat : KernelCpuStat} (h : stat.Fits) (rest : List UInt8) :
    readName (Layout.printed nameSize (nameBytes stat.cpuName) ++ rest) = stat.cpuName := by
  have hbyte : ∀ c ∈ stat.cpuName.toList, (UInt8.ofNat c.toNat).toNat = c.toNat :=
    fun c hc => toNat_nameByte (h.chars c hc).2
  have hzero : 0 ∉ nameBytes stat.cpuName := by
    intro hmem
    obtain ⟨c, hc, hbytes⟩ := List.mem_map.mp hmem
    have hnat := hbyte c hc
    rw [hbytes, UInt8.toNat_zero] at hnat
    exact absurd hnat (h.chars c hc).1.ne
  have hlength : (nameBytes stat.cpuName).length < nameSize := by
    rw [nameBytes, List.length_map]
    exact h.length
  have hchars : (nameBytes stat.cpuName).map (fun b => Char.ofNat b.toNat) =
      stat.cpuName.toList := by
    rw [nameBytes, List.map_map]
    refine (List.map_congr_left fun c hc => ?_).trans (List.map_id _)
    rw [Function.comp_apply, hbyte c hc, Char.ofNat_toNat, id]
  rw [readName, Layout.text_printed_append hlength hzero, hchars, String.ofList_toList]

/-- The memory has room for all entries. -/
theorem room_entry {mem : List UInt8} (hmem : mem.length = dataSize) {idx : ℕ}
    (h : idx < maxCpus) : statSize * (idx + 1) ≤ mem.length := by
  have hsize : dataSize = statSize * maxCpus := by decide
  rw [hmem, hsize]
  exact Nat.mul_le_mul_left statSize h

/-- There is room for the mark behind the entries. -/
theorem room_mark {mem : List UInt8} (hmem : mem.length = dataSize) {idx : ℕ} (h : idx < maxCpus) :
    statSize * idx + [(0 : UInt8)].length ≤ mem.length := by
  refine le_trans ?_ (room_entry hmem h)
  rw [statSize_mul_succ, Nat.add_assoc]
  exact Nat.add_le_add_left (by decide) _

/-- An entry that is written leaves the memory as large as it was. -/
theorem length_writeStat_eq {mem : List UInt8} (hmem : mem.length = dataSize) {idx : ℕ}
    (h : idx < maxCpus) (stat : KernelCpuStat) : (writeStat mem idx stat).length = dataSize := by
  rw [length_writeStat stat (room_entry hmem h), hmem]

theorem length_writeStats {mem : List UInt8} (hmem : mem.length = dataSize) {idx : ℕ}
    {stats : List KernelCpuStat} (h : idx + stats.length ≤ maxCpus) :
    (writeStats mem idx stats).length = dataSize := by
  induction stats generalizing mem idx with
  | nil =>
    rw [writeStats]
    split
    · next hlt => rw [Layout.length_store (room_mark hmem hlt), hmem]
    · exact hmem
  | cons stat stats ih =>
    rw [List.length_cons] at h
    exact ih (length_writeStat_eq hmem (by omega) stat) (by omega)

/-- What lies before the entries that are written is not touched. -/
theorem load_writeStats_of_le {mem : List UInt8} (hmem : mem.length = dataSize) {idx : ℕ}
    {stats : List KernelCpuStat} (h : idx + stats.length ≤ maxCpus) {start count : ℕ}
    (hle : start + count ≤ statSize * idx) :
    Layout.load (writeStats mem idx stats) start count = Layout.load mem start count := by
  induction stats generalizing mem idx with
  | nil =>
    rw [writeStats]
    split
    · next hlt => exact Layout.load_store_of_disjoint (room_mark hmem hlt) (.inl hle)
    · rfl
  | cons stat stats ih =>
    rw [List.length_cons] at h
    have hroom := room_entry hmem (show idx < maxCpus by omega)
    have hlength := length_writeStat_eq hmem (show idx < maxCpus by omega) stat
    have hnext : statSize * idx ≤ statSize * (idx + 1) := Nat.mul_le_mul_left _ idx.le_succ
    rw [writeStats, ih hlength (by omega) (hle.trans hnext),
      load_writeStat_of_disjoint stat hroom (.inl hle)]

/-- **Every entry is read as it has been written.** -/
theorem readStat_writeStats {mem : List UInt8} (hmem : mem.length = dataSize) {idx : ℕ}
    {stats : List KernelCpuStat} (h : idx + stats.length ≤ maxCpus)
    (hfits : ∀ stat ∈ stats, stat.Fits) {j : ℕ} (hj : j < stats.length) :
    readStat (writeStats mem idx stats) (idx + j) = stats[j] := by
  induction stats generalizing mem idx j with
  | nil => cases hj
  | cons stat stats ih =>
    rw [List.length_cons] at h
    have hroom := room_entry hmem (show idx < maxCpus by omega)
    have hlength := length_writeStat_eq hmem (show idx < maxCpus by omega) stat
    rw [writeStats]
    cases j with
    | zero =>
      have hend := statSize_mul_succ idx
      have hstat := hfits stat List.mem_cons_self
      show readStat (writeStats (writeStat mem idx stat) (idx + 1) stats) idx = stat
      rw [readStat, load_writeStats_of_le hlength (by omega) (by omega),
        load_writeStats_of_le hlength (by omega) (by omega), load_name_writeStat stat hroom,
        load_counters_writeStat stat hroom, readName_printed hstat,
        readCounters_counterBytes hstat.counters]
    | succ j =>
      have hrest := ih hlength (show idx + 1 + stats.length ≤ maxCpus by omega)
        (fun other hother => hfits other (List.mem_cons_of_mem stat hother))
        (Nat.lt_of_succ_lt_succ hj)
      rw [Nat.add_assoc, Nat.add_comm 1] at hrest
      exact hrest

/-- The entry behind the last one has no name. -/
theorem cpuName_readStat_end {mem : List UInt8} (hmem : mem.length = dataSize) {idx : ℕ}
    {stats : List KernelCpuStat} (h : idx + stats.length < maxCpus) :
    (readStat (writeStats mem idx stats) (idx + stats.length)).cpuName = "" := by
  induction stats generalizing mem idx with
  | nil =>
    rw [List.length_nil, Nat.add_zero] at h ⊢
    rw [writeStats, if_pos h, readStat]
    simp only [readName]
    rw [Layout.load_store_append (room_mark hmem h) (by decide)]
    rfl
  | cons stat stats ih =>
    rw [List.length_cons] at h ⊢
    have hlength := length_writeStat_eq hmem (show idx < maxCpus by omega) stat
    have hrest := ih hlength (show idx + 1 + stats.length < maxCpus by omega)
    rw [Nat.add_assoc, Nat.add_comm 1] at hrest
    exact hrest

/-! ### The names of the processors -/

theorem toNat_mem_toDigits {n : ℕ} {c : Char} (h : c ∈ Nat.toDigits 10 n) :
    48 ≤ c.toNat ∧ c.toNat < 58 := by
  obtain ⟨hlow, hhigh⟩ := Char.isDigit_iff_toNat.mp
    (Nat.isDigit_of_mem_toDigits (by decide) (by decide) h)
  exact ⟨hlow, hhigh.trans_lt (by decide)⟩

/-- The characters of the name of a processor. -/
theorem mem_cpuName {cpu : ℕ} {c : Char} (h : c ∈ (cpuName cpu).toList) :
    48 ≤ c.toNat ∧ c.toNat < 118 := by
  rw [toList_cpuName, List.mem_append, Sql.toList_toString_nat] at h
  rcases h with hletter | hdigit
  · have hletters : "cpu".toList.all (fun c => decide (48 ≤ c.toNat ∧ c.toNat < 118)) = true := by
      decide
    exact of_decide_eq_true (List.all_eq_true.mp hletters c hletter)
  · obtain ⟨hlow, hhigh⟩ := toNat_mem_toDigits hdigit
    exact ⟨hlow, hhigh.trans (by decide)⟩

/-- A processor is an `int`, and its name has room for more digits than that. -/
theorem fits_cpuStat (clock : JiffyClock) (times : ℕ → CpuTimes) {cpu : ℕ} (h : cpu < 2 ^ 31)
    (hcounters : (cpuCounters clock (times cpu)).Fits) : (cpuStat clock times cpu).Fits := by
  refine ⟨fun c hc => ?_, ?_, hcounters⟩
  · obtain ⟨hlow, hhigh⟩ := mem_cpuName hc
    omega
  · have hdigits := (Nat.length_toDigits_le_iff (b := 10) (n := cpu) (k := 12) (by decide)
      (by decide)).mpr (h.trans (by decide))
    have hletters : "cpu".toList.length = 3 := rfl
    have hlength : (cpuName cpu).toList.length = 3 + (Nat.toDigits 10 cpu).length := by
      rw [toList_cpuName, List.length_append, Sql.toList_toString_nat, hletters]
    rw [cpuStat, hlength, nameSize]
    omega

/-- Reading an array up to the first entry that is not wanted. -/
theorem takeWhile_map_range {α : Type*} {f : ℕ → α} {p : α → Bool} {n count : ℕ} (hn : n ≤ count)
    (h : ∀ j < n, p (f j) = true) (hend : n < count → p (f n) = false) :
    ((List.range count).map f).takeWhile p = (List.range n).map f := by
  obtain ⟨m, rfl⟩ := Nat.exists_eq_add_of_le hn
  have hall : ∀ a ∈ (List.range n).map f, p a = true := by
    intro a ha
    obtain ⟨j, hj, rfl⟩ := List.mem_map.mp ha
    exact h j (List.mem_range.mp hj)
  rw [List.range_add, List.map_append, List.takeWhile_append_of_pos hall]
  cases m with
  | zero => simp
  | succ m =>
    have hfirst := hend (by omega)
    simp [List.range_succ_eq_map, hfirst]

/-- **The two parties agree**: whatever the memory has held before, `CpuStatMonitor` reads of it the
entries that `update_cpu_stats` exports. -/
theorem readStats_mapped (clock : JiffyClock) (times : ℕ → CpuTimes) {cpus : List ℕ}
    {mem : List UInt8} (hmem : mem.length = dataSize)
    (hfits : ∀ cpu ∈ cpus, cpu < 2 ^ 31 ∧ (cpuCounters clock (times cpu)).Fits) :
    readStats (mappedStats (updateMemory clock times cpus mem)) =
      readStats (updateCpuStats clock times cpus) := by
  have hstats : ∀ stat ∈ (cpus.take maxCpus).map (cpuStat clock times), stat.Fits := by
    intro stat hstat
    obtain ⟨cpu, hcpu, rfl⟩ := List.mem_map.mp hstat
    obtain ⟨hint, hcounters⟩ := hfits cpu (List.mem_of_mem_take hcpu)
    exact fits_cpuStat clock times hint hcounters
  have hlength : ((cpus.take maxCpus).map (cpuStat clock times)).length =
      min maxCpus cpus.length := by
    rw [List.length_map, List.length_take]
  have hroom : 0 + ((cpus.take maxCpus).map (cpuStat clock times)).length ≤ maxCpus := by omega
  have hread : ∀ j < min statCount cpus.length,
      readStat (updateMemory clock times cpus mem) j = cpuStat clock times (cpus[j]?.getD 0) := by
    intro j hj
    have hlt : j < min maxCpus cpus.length := hj.trans_le (min_le_min_right _ (by decide))
    have hwritten := readStat_writeStats (j := j) hmem hroom hstats (by omega)
    rw [Nat.zero_add] at hwritten
    rw [updateMemory, hwritten, List.getElem_map, List.getElem_take,
      List.getElem?_eq_getElem (by omega), Option.getD_some]
  rw [readStats_updateCpuStats, readStats, mappedStats, List.take_of_length_le (by simp),
    takeWhile_map_range (min_le_left statCount cpus.length)]
  · refine List.ext_getElem (by simp) fun j hj _ => ?_
    rw [List.length_map, List.length_range] at hj
    rw [List.getElem_map, List.getElem_range, hread j hj, List.getElem_map, List.getElem_take,
      List.getElem?_eq_getElem (by omega), Option.getD_some]
  · intro j hj
    rw [hread j hj]
    exact decide_eq_true (cpuName_ne_nil _)
  · intro hlt
    have hcount : min maxCpus cpus.length = min statCount cpus.length := by
      simp only [statCount, maxCpus] at hlt ⊢
      omega
    have hless : 0 + ((cpus.take maxCpus).map (cpuStat clock times)).length < maxCpus := by
      rw [Nat.zero_add, hlength, hcount]
      exact hlt.trans (by decide)
    have hend := cpuName_readStat_end hmem hless
    rw [Nat.zero_add, hlength, hcount] at hend
    rw [updateMemory, hend]
    rfl

end MonitorSystem
