import MonitorSystem.Manager.ClusterStatistics
import MonitorSystem.Worker.CpuStatMemory

/-!
# The load averages, and where they are read

`CpuLoadMonitor::updateOnce` (`worker/src/monitor/CpuLoadMonitor.cpp`) maps twelve bytes of the
device `CpuStatCollector`, takes them as a `struct cpu_load`
(`worker/include/monitor/MonitorStructs.h`), three floats, and publishes these. Only if the device
cannot be opened or mapped, it reads `/proc/loadavg`.

The device has no load averages to offer. The memory that it shares is an array of `struct
cpu_stat`, so that the three floats are the first letters of the name of the first processor
(`updateOnce_exported`), and do not change with the load. They are right only while nothing has
been exported, and only if there is no load (`loads_right_iff`).
-/

namespace MonitorSystem

namespace CpuLoadMonitor

/-- The load averages, in hundredths, as `/proc/loadavg` shows them. -/
structure Loads where
  load1 : ℕ := 0
  load3 : ℕ := 0
  load15 : ℕ := 0
  deriving DecidableEq, Repr

/-- `struct cpu_load`, and the message that is made of it. A float that is not a number is
`none`. -/
structure CpuLoadStruct where
  loadAvg1 : Option ℚ
  loadAvg3 : Option ℚ
  loadAvg15 : Option ℚ
  deriving DecidableEq, Repr

/-- A machine: its load averages, whether they can be read, whether the device can be opened and its
pages be mapped, and what the kernel module has exported. -/
structure Machine where
  loads : Loads
  procReadable : Bool := true
  opens : Bool := true
  remaps : Bool := true
  clock : JiffyClock
  cpus : List ℕ
  exports : List (ℕ → CpuTimes)

/-- The memory of the kernel module, after the exports so far. -/
def Machine.memory (s : Machine) : List UInt8 :=
  s.exports.foldl (fun mem times => updateMemory s.clock times s.cpus mem) zeroed

/-- `cpu_stat_mmap`, of some bytes from the beginning: whole pages are mapped, as many as there
are. -/
def Machine.mmap (s : Machine) (size : ℕ) : Option (List UInt8) :=
  if dataSize < pageAlign size then none
  else if s.remaps then some (Layout.load s.memory 0 (pageAlign size)) else none

/-- `sizeof(struct cpu_load)`. -/
def loadSize : ℕ := 12

/-- A float in memory. -/
def floatAt (mem : List UInt8) (offset : ℕ) : Option ℚ :=
  Layout.float32 (Layout.ofBytes (Layout.load mem offset 4))

/-- The `struct cpu_load` at the beginning of some memory. -/
def cpuLoadOf (mem : List UInt8) : CpuLoadStruct :=
  let info := Layout.load mem 0 loadSize
  ⟨floatAt info 0, floatAt info 4, floatAt info 8⟩

/-- `fscanf` with `%f`, of a number with two decimals. -/
def scanned (hundredths : ℕ) : ℚ := binary32 (hundredths / 100)

/-- What `/proc/loadavg` shows, as floats. -/
def Loads.floats (l : Loads) : CpuLoadStruct :=
  ⟨some (scanned l.load1), some (scanned l.load3), some (scanned l.load15)⟩

/-- `readLoadFromProc`. -/
def Machine.readLoadFromProc (s : Machine) : Option CpuLoadStruct :=
  if s.procReadable then some s.loads.floats else none

/-- **`updateOnce`**: the message that is published, if there is one. -/
def updateOnce (s : Machine) : Option CpuLoadStruct :=
  if s.opens then
    match s.mmap loadSize with
    | some addr => some (cpuLoadOf addr)
    | none => s.readLoadFromProc
  else s.readLoadFromProc

/-- **The published load averages are right**: they are those of the machine, as floats. -/
def LoadsRight (s : Machine) : Prop := ∀ msg ∈ updateOnce s, msg = s.loads.floats

/-- Some entries have been exported. -/
def Machine.Exported (s : Machine) : Prop := s.exports ≠ [] ∧ s.cpus ≠ []

/-! ### The first bytes of the memory -/

/-- The field of a name that has been written into empty memory. -/
def nameField (name : String) : List UInt8 :=
  Layout.printed nameSize (nameBytes name) ++
    List.replicate (nameSize - (Layout.printed nameSize (nameBytes name)).length) 0

/-- Writing the name again leaves its field as it is. -/
theorem drop_nameField (name : String) :
    (nameField name).drop (Layout.printed nameSize (nameBytes name)).length =
      List.replicate (nameSize - (Layout.printed nameSize (nameBytes name)).length) 0 :=
  List.drop_left' rfl

/-- One export: the name of the first processor is written over what was there. -/
theorem load_updateMemory {mem : List UInt8} (hmem : mem.length = dataSize) (clock : JiffyClock)
    (times : ℕ → CpuTimes) (cpu : ℕ) (cpus : List ℕ) :
    Layout.load (updateMemory clock times (cpu :: cpus) mem) 0 nameSize =
      Layout.printed nameSize (nameBytes (cpuName cpu)) ++ (Layout.load mem 0 nameSize).drop
        (Layout.printed nameSize (nameBytes (cpuName cpu))).length := by
  have hroom := room_entry hmem (show 0 < maxCpus by decide)
  have hlength := length_writeStat_eq hmem (show 0 < maxCpus by decide) (cpuStat clock times cpu)
  have hrest : 0 + 1 + ((cpus.take 255).map (cpuStat clock times)).length ≤ maxCpus := by
    rw [List.length_map, List.length_take, maxCpus]
    omega
  have htake : (cpu :: cpus).take maxCpus = cpu :: cpus.take 255 := List.take_succ_cons
  rw [updateMemory, htake, List.map_cons, writeStats,
    load_writeStats_of_le hlength hrest (by decide)]
  exact load_name_writeStat _ hroom

theorem length_updateMemory {mem : List UInt8} (hmem : mem.length = dataSize) (clock : JiffyClock)
    (times : ℕ → CpuTimes) (cpus : List ℕ) :
    (updateMemory clock times cpus mem).length = dataSize := by
  refine length_writeStats hmem ?_
  rw [List.length_map, List.length_take]
  omega

/-- A field that an export leaves: behind the name of the first processor there are zeros. -/
theorem load_exports (clock : JiffyClock) (cpu : ℕ) (cpus : List ℕ) (exports : List (ℕ → CpuTimes))
    {mem : List UInt8} (hmem : mem.length = dataSize)
    (hbehind : (Layout.load mem 0 nameSize).drop
        (Layout.printed nameSize (nameBytes (cpuName cpu))).length =
      List.replicate (nameSize - (Layout.printed nameSize (nameBytes (cpuName cpu))).length) 0)
    (hne : exports ≠ []) :
    Layout.load (exports.foldl (fun mem times => updateMemory clock times (cpu :: cpus) mem) mem) 0
      nameSize = nameField (cpuName cpu) := by
  induction exports generalizing mem with
  | nil => exact absurd rfl hne
  | cons times exports ih =>
    have hfirst : Layout.load (updateMemory clock times (cpu :: cpus) mem) 0 nameSize =
        nameField (cpuName cpu) := by
      rw [load_updateMemory hmem, hbehind, nameField]
    rw [List.foldl_cons]
    rcases eq_or_ne exports [] with rfl | hmore
    · rw [List.foldl_nil]
      exact hfirst
    · refine ih (length_updateMemory hmem clock times _) ?_ hmore
      rw [hfirst, drop_nameField]

/-- Without processors, the memory stays empty. -/
theorem load_exports_nil (clock : JiffyClock) (exports : List (ℕ → CpuTimes)) {mem : List UInt8}
    (hmem : mem.length = dataSize)
    (hzero : Layout.load mem 0 nameSize = List.replicate nameSize 0) :
    Layout.load (exports.foldl (fun mem times => updateMemory clock times [] mem) mem) 0 nameSize =
      List.replicate nameSize 0 := by
  induction exports generalizing mem with
  | nil => exact hzero
  | cons times exports ih =>
    refine ih (length_updateMemory hmem clock times []) ?_
    show Layout.load (Layout.store mem (statSize * 0) [0]) (statSize * 0) nameSize = _
    rw [Layout.load_store_append (room_mark hmem (by decide)) (by decide)]
    exact congrArg (fun field => [0] ++ field.drop 1) hzero

theorem load_zeroed : Layout.load zeroed 0 nameSize = List.replicate nameSize 0 :=
  Layout.load_replicate_zero (by decide)

theorem length_zeroed : zeroed.length = dataSize := List.length_replicate

/-- **The first bytes of the memory**, once something has been exported. -/
theorem load_memory_of_exported {s : Machine} {cpu : ℕ} {cpus : List ℕ}
    (hcpus : s.cpus = cpu :: cpus) (hne : s.exports ≠ []) : Layout.load s.memory 0 nameSize = nameField (cpuName cpu) := by
  rw [Machine.memory, hcpus]
  refine load_exports s.clock cpu cpus s.exports length_zeroed ?_ hne
  rw [load_zeroed, List.drop_replicate]

theorem load_memory_of_not_exported {s : Machine} (h : ¬s.Exported) :
    Layout.load s.memory 0 nameSize = List.replicate nameSize 0 := by
  rw [Machine.memory]
  rcases not_and_or.mp h with hexports | hcpus
  · rw [not_not.mp hexports]
    exact load_zeroed
  · rw [not_not.mp hcpus]
    exact load_exports_nil s.clock s.exports length_zeroed load_zeroed

/-- No more than the field of the first name is read. -/
theorem cpuLoadOf_load (mem : List UInt8) {size : ℕ} (h : loadSize ≤ size) :
    cpuLoadOf (Layout.load mem 0 size) = cpuLoadOf mem := by
  simp only [cpuLoadOf]
  rw [Layout.load_load mem (by omega : 0 + loadSize ≤ size)]

/-! ### What is published -/

/-- The device is used. -/
def Machine.Mapped (s : Machine) : Prop := s.opens = true ∧ s.remaps = true

theorem updateOnce_of_mapped {s : Machine} (h : s.Mapped) :
    updateOnce s = some (cpuLoadOf (Layout.load s.memory 0 nameSize)) := by
  have hfits : ¬dataSize < pageAlign loadSize := by decide
  simp only [updateOnce, if_pos h.1, Machine.mmap, if_neg hfits, if_pos h.2]
  rw [cpuLoadOf_load s.memory (by decide), cpuLoadOf_load s.memory (by decide)]

theorem updateOnce_of_not_mapped {s : Machine} (h : ¬s.Mapped) :
    updateOnce s = s.readLoadFromProc := by
  unfold updateOnce
  split
  · next hopens =>
    have hremaps : ¬s.remaps = true := fun hremaps => h ⟨hopens, hremaps⟩
    have hnone : s.mmap loadSize = none := by
      rw [Machine.mmap, if_neg hremaps, ite_self]
    rw [hnone]
  · rfl

/-- **Through the device, the name of the first processor is published**, whatever the load. -/
theorem updateOnce_exported {s : Machine} (h : s.Mapped) {cpu : ℕ} {cpus : List ℕ}
    (hcpus : s.cpus = cpu :: cpus) (hne : s.exports ≠ []) :
    updateOnce s = some (cpuLoadOf (nameField (cpuName cpu))) := by
  rw [updateOnce_of_mapped h, load_memory_of_exported hcpus hne]

theorem updateOnce_not_exported {s : Machine} (h : s.Mapped) (hnot : ¬s.Exported) :
    updateOnce s = some ⟨some 0, some 0, some 0⟩ := by
  rw [updateOnce_of_mapped h, load_memory_of_not_exported hnot]
  decide +kernel

/-! ### No load average is a name -/

/-- The three letters and a digit are a tiny number. -/
theorem float32_letters {digit : ℕ} (hlow : 48 ≤ digit) (hhigh : digit < 58) :
    ∃ q, Layout.float32 (99 + 256 * (112 + 256 * (117 + 256 * (digit + 256 * 0)))) = some q ∧
      0 < q ∧ q < 1 / 1000 := by
  have htiny : ∀ n ∈ List.range' 48 10,
      (Layout.float32 (99 + 256 * (112 + 256 * (117 + 256 * (n + 256 * 0))))).any
        (fun q => decide (0 < q ∧ q < 1 / 1000)) = true := by
    decide +kernel
  have hmem : digit ∈ List.range' 48 10 := List.mem_range'_1.mpr ⟨hlow, hhigh⟩
  obtain ⟨q, hq, hbounds⟩ := (Option.any_eq_true _ _).mp (htiny digit hmem)
  exact ⟨q, hq, of_decide_eq_true hbounds⟩

/-- The name of a processor begins with three letters and a digit. -/
theorem nameField_cpuName (cpu : ℕ) : ∃ (digit : UInt8) (rest : List UInt8),
    48 ≤ digit.toNat ∧ digit.toNat < 58 ∧
      nameField (cpuName cpu) = 99 :: 112 :: 117 :: digit :: rest := by
  obtain ⟨c, digits, hdigits⟩ :=
    List.exists_cons_of_ne_nil (Nat.toDigits_ne_nil (n := cpu) (b := 10))
  have hdigit : c ∈ Nat.toDigits 10 cpu := hdigits ▸ List.mem_cons_self
  obtain ⟨hlow, hhigh⟩ := toNat_mem_toDigits hdigit
  have hbyte := toNat_nameByte (show c.toNat < 256 by omega)
  have hname : nameBytes (cpuName cpu) = 99 :: 112 :: 117 :: UInt8.ofNat c.toNat ::
      digits.map fun c => UInt8.ofNat c.toNat := by
    rw [nameBytes, toList_cpuName, Sql.toList_toString_nat, hdigits]
    rfl
  refine ⟨UInt8.ofNat c.toNat, (nameField (cpuName cpu)).drop 4, hlow.trans hbyte.ge,
    hbyte.le.trans_lt hhigh, ?_⟩
  rw [nameField, hname]
  rfl

/-- **What the device offers as the load** is a tiny number, and never none at all. -/
theorem loadAvg1_nameField (cpu : ℕ) :
    ∃ q, (cpuLoadOf (nameField (cpuName cpu))).loadAvg1 = some q ∧ 0 < q ∧ q < 1 / 1000 := by
  obtain ⟨digit, rest, hlow, hhigh, hfield⟩ := nameField_cpuName cpu
  obtain ⟨q, hq, hbounds⟩ := float32_letters hlow hhigh
  refine ⟨q, ?_, hbounds⟩
  rw [hfield]
  exact hq

/-- A load average that is shown with two decimals is no such number. -/
theorem scanned_gt {hundredths : ℕ} (h : hundredths ≠ 0) : 1 / 1000 < scanned hundredths := by
  have hone : (1 : ℚ) ≤ hundredths := by exact_mod_cast Nat.pos_of_ne_zero h
  have hmem := (binary32_mem (q := (hundredths : ℚ) / 100) (by positivity)).1
  rw [scanned]
  norm_num at hmem ⊢
  linarith only [hmem, hone]

theorem scanned_zero : scanned 0 = 0 := by
  rw [scanned, Nat.cast_zero, zero_div, binary32, Digits.round_zero Digits.isNearest_halfEven]

theorem scanned_eq_zero_iff {hundredths : ℕ} : scanned hundredths = 0 ↔ hundredths = 0 := by
  constructor
  · intro hzero
    by_contra hne
    have hgt := scanned_gt hne
    rw [hzero] at hgt
    norm_num at hgt
  · rintro rfl
    exact scanned_zero

theorem floats_eq_zero_iff {l : Loads} :
    (⟨some 0, some 0, some 0⟩ : CpuLoadStruct) = l.floats ↔ l = {} := by
  obtain ⟨load1, load3, load15⟩ := l
  simp only [Loads.floats, CpuLoadStruct.mk.injEq, Option.some.injEq, Loads.mk.injEq,
    @eq_comm ℚ 0, scanned_eq_zero_iff]

/-- No load averages are what the device offers. -/
theorem nameField_ne_floats (cpu : ℕ) (l : Loads) :
    cpuLoadOf (nameField (cpuName cpu)) ≠ l.floats := by
  intro heq
  obtain ⟨q, hq, hpos, hlt⟩ := loadAvg1_nameField cpu
  rw [heq] at hq
  have hscanned : scanned l.load1 = q := Option.some.inj hq
  rcases eq_or_ne l.load1 0 with hzero | hne
  · rw [hzero, scanned_zero] at hscanned
    exact hpos.ne hscanned
  · have hgt := scanned_gt hne
    rw [hscanned] at hgt
    exact lt_asymm hgt hlt

/-- **The load averages that are published**, in every state of a machine: they are right if and
only if the device is not used, or has exported nothing while there is no load. -/
theorem loads_right_iff (s : Machine) :
    LoadsRight s ↔ ¬s.Mapped ∨ ¬s.Exported ∧ s.loads = {} := by
  by_cases hmapped : s.Mapped
  · rw [or_iff_right (not_not.mpr hmapped), LoadsRight]
    by_cases hexported : s.Exported
    · obtain ⟨hne, hcpus⟩ := hexported
      obtain ⟨cpu, cpus, hcons⟩ := List.exists_cons_of_ne_nil hcpus
      rw [updateOnce_exported hmapped hcons hne]
      refine iff_of_false (fun h => ?_) fun h => h.1 ⟨hne, hcpus⟩
      exact nameField_ne_floats cpu s.loads (h _ rfl)
    · rw [updateOnce_not_exported hmapped hexported, and_iff_right hexported,
        ← floats_eq_zero_iff]
      simp only [Option.mem_def, Option.some.injEq, forall_eq']
  · refine iff_of_true (fun msg hmsg => ?_) (.inl hmapped)
    rw [updateOnce_of_not_mapped hmapped, Machine.readLoadFromProc] at hmsg
    split at hmsg
    · exact (Option.some.inj hmsg).symm
    · cases hmsg

/-- A machine with one processor, whose module has been loaded. -/
def oneCpu (loads : Loads) : Machine where
  loads := loads
  clock := thousandTicks
  cpus := [0]
  exports := [fun _ => {}]

/-- **Two loads, one message**: of an idle and of a busy machine the same is published, and it is
right for neither. -/
theorem loads_not_right :
    updateOnce (oneCpu {}) = updateOnce (oneCpu ⟨350, 200, 100⟩) ∧
      updateOnce (oneCpu {}) = some ⟨some (16085091 / 2 ^ 54), some 0, some 0⟩ ∧
      ¬LoadsRight (oneCpu {}) ∧ ¬LoadsRight (oneCpu ⟨350, 200, 100⟩) := by
  have hpublished : ∀ loads,
      updateOnce (oneCpu loads) = some (cpuLoadOf (nameField (cpuName 0))) :=
    fun loads => updateOnce_exported ⟨rfl, rfl⟩ rfl (List.cons_ne_nil _ _)
  have hfield : nameField (cpuName 0) = 99 :: 112 :: 117 :: 48 :: List.replicate 12 0 := rfl
  have hfloats : cpuLoadOf (99 :: 112 :: 117 :: 48 :: List.replicate 12 0) =
      ⟨some (16085091 / 2 ^ 54), some 0, some 0⟩ := by decide +kernel
  have hwrong : ∀ loads, ¬LoadsRight (oneCpu loads) :=
    fun loads h => nameField_ne_floats 0 loads (h _ (hpublished loads))
  refine ⟨(hpublished _).trans (hpublished _).symm, ?_, hwrong _, hwrong _⟩
  rw [hpublished, hfield, hfloats]

end CpuLoadMonitor

end MonitorSystem
