import MonitorSystem.Library.Words
import MonitorSystem.Worker.DiskMonitor
import MonitorSystem.Worker.NetCollectors

/-!
# Reading the tables of the kernel

The collectors read the counters of the kernel from files of text: a line for each interface
(`/proc/net/dev`), for each disk (`/proc/diskstats`) or for each quantity (`/proc/meminfo`), with
columns that are padded with blanks. A stream is read with `>>`: blanks are skipped, and a number
goes on as long as there are digits.

This file has the extraction of numbers and words, and the first two tables. However the columns
of a table are padded, what is read from it is the table (`getNetStatsFromProc_laid`,
`readDisks_laid`), and a collector that reads texts, time after time, publishes what it would
publish of the tables themselves (`collectors_read_tables`).
-/

namespace MonitorSystem

/-! ### Extracting from a stream -/

/-- The number in base ten with which a stream goes on, after blanks: whether there is a minus
sign, the digits, and what is left behind them. -/
def extractNumber (s : List Char) : Option ((Bool × ℕ) × List Char) :=
  let unsigned (negative : Bool) (rest : List Char) :=
    (leadingNat rest).map fun n => ((negative, n), rest.dropWhile (·.isDigit))
  match s.dropWhile isspace with
  | '-' :: rest => unsigned true rest
  | '+' :: rest => unsigned false rest
  | rest => unsigned false rest

/-- `>>` of a `uint64_t`: what is stored, and what is left unless it fails. A number that is too
large is stored as the largest one. -/
def extractUInt64 (s : List Char) : UInt64 × Option (List Char) :=
  match extractNumber s with
  | none => (0, none)
  | some ((negative, n), rest) =>
    if n < 2 ^ 64 then (if negative then -UInt64.ofNat n else UInt64.ofNat n, some rest)
    else (UInt64.ofNat (2 ^ 64 - 1), none)

/-- `>>` of a `uint64_t`, where it does not fail. -/
def nextUInt64 (s : List Char) : Option (UInt64 × List Char) :=
  (extractUInt64 s).2.map ((extractUInt64 s).1, ·)

/-- `>>` of an `int`, where it does not fail. -/
def nextInt (s : List Char) : Option (ℤ × List Char) :=
  (extractNumber s).bind fun ((negative, n), rest) =>
    let value : ℤ := if negative then -(n : ℤ) else n
    if -(2 ^ 31) ≤ value ∧ value < 2 ^ 31 then some (value, rest) else none

/-- `>>` of a string, where it does not fail. -/
def nextWord (s : List Char) : Option (List Char × List Char) :=
  if (Words.next isspace s).1 = [] then none else some (Words.next isspace s)

/-- A number as it stands in a table. -/
def decimal (n : ℕ) : List Char := Nat.toDigits 10 n

section Extracting

variable {s w : List Char} {ws : List (List Char)} {β : Type}

/-- **A way of extracting reads a word as some value**, wherever the word comes next. -/
def ReadsAs (extract : List Char → Option (β × List Char)) (w : List Char) (b : β) : Prop :=
  ∀ s ws, Words.words isspace s = w :: ws →
    ∃ rest, extract s = some (b, rest) ∧ Words.words isspace rest = ws

theorem ReadsAs.bind {γ : Type} {extract : List Char → Option (β × List Char)} {b : β}
    (h : ReadsAs extract w b) (hs : Words.words isspace s = w :: ws)
    {k : β × List Char → Option γ} {r : Option γ}
    (hk : ∀ rest, Words.words isspace rest = ws → k (b, rest) = r) : (extract s >>= k) = r := by
  obtain ⟨rest, hrest, hws⟩ := h s ws hs
  rw [hrest]
  exact hk rest hws

theorem readsAs_nextWord (w : List Char) : ReadsAs nextWord w w := by
  intro s ws h
  obtain ⟨hw, hne, hws⟩ := Words.words_eq_cons_iff.mp h
  refine ⟨(Words.next isspace s).2, ?_, hws⟩
  rw [nextWord, if_neg (by rwa [hw]), ← hw]

theorem isDigit_of_mem_decimal {n : ℕ} {c : Char} (h : c ∈ decimal n) : c.isDigit = true :=
  Nat.isDigit_of_mem_toDigits (by decide) (by decide) h

theorem isDigit_eq_false_of_isspace {c : Char} (h : isspace c = true) : c.isDigit = false := by
  by_contra hcon
  rw [isspace_eq_false_of_isDigit (by simpa using hcon)] at h
  cases h

/-- The digits of a number that comes next. -/
theorem extractNumber_decimal {n : ℕ} (h : Words.words isspace s = decimal n :: ws) :
    ∃ rest, extractNumber s = some ((false, n), rest) ∧ Words.words isspace rest = ws := by
  obtain ⟨hw, -, hws⟩ := Words.words_eq_cons_iff.mp h
  have hparts : (Words.next isspace s).1 ++ (Words.next isspace s).2 = s.dropWhile isspace :=
    List.takeWhile_append_dropWhile
  have hhead : ∀ c ∈ (Words.next isspace s).2.head?, isspace c = true := Words.head_next_snd s
  obtain ⟨rest, hrest⟩ : ∃ rest, (Words.next isspace s).2 = rest := ⟨_, rfl⟩
  rw [hrest] at hws hparts hhead
  rw [hw] at hparts
  have hfirst : ∀ c ∈ rest.head?, c.isDigit = false := fun c hc =>
    isDigit_eq_false_of_isspace (hhead c hc)
  have htake : (decimal n ++ rest).takeWhile (·.isDigit) = decimal n := by
    rw [List.takeWhile_append_of_pos fun c hc => isDigit_of_mem_decimal hc]
    cases rest with
    | nil => simp
    | cons c rest => rw [List.takeWhile_cons_of_neg (by simp [hfirst c rfl]), List.append_nil]
  have hdrop : (decimal n ++ rest).dropWhile (·.isDigit) = rest := by
    rw [List.dropWhile_append_of_pos fun c hc => isDigit_of_mem_decimal hc]
    cases rest with
    | nil => rfl
    | cons c rest => rw [List.dropWhile_cons_of_neg (by simp [hfirst c rfl])]
  have hnat : leadingNat (decimal n ++ rest) = some n := by
    rw [leadingNat, htake, if_neg (show decimal n ≠ [] from Nat.toDigits_ne_nil)]
    exact congrArg some (Nat.ofDigitChars_ten_toDigits)
  refine ⟨rest, ?_, hws⟩
  obtain ⟨c, cs, hcs⟩ := List.exists_cons_of_ne_nil (Nat.toDigits_ne_nil (n := n) (b := 10))
  have hc : c.isDigit = true := isDigit_of_mem_decimal (n := n) (by rw [decimal, hcs]; simp)
  unfold extractNumber
  rw [← hparts]
  -- a sign is not a digit
  split
  · next tail htail =>
    rw [decimal, hcs] at htail
    obtain ⟨rfl, -⟩ := List.cons_eq_cons.mp htail
    cases hc
  · next tail htail =>
    rw [decimal, hcs] at htail
    obtain ⟨rfl, -⟩ := List.cons_eq_cons.mp htail
    cases hc
  · show (leadingNat (decimal n ++ rest)).map _ = _
    rw [hnat, hdrop]
    rfl

theorem extractUInt64_decimal {n : UInt64} (h : Words.words isspace s = decimal n.toNat :: ws) :
    ∃ rest, extractUInt64 s = (n, some rest) ∧ Words.words isspace rest = ws := by
  obtain ⟨rest, hrest, hws⟩ := extractNumber_decimal h
  refine ⟨rest, ?_, hws⟩
  rw [extractUInt64, hrest]
  show (if n.toNat < 2 ^ 64 then _ else _) = _
  rw [if_pos n.toNat_lt, if_neg (by decide), UInt64.ofNat_toNat]

theorem readsAs_nextUInt64 (n : UInt64) : ReadsAs nextUInt64 (decimal n.toNat) n := by
  intro s ws h
  obtain ⟨rest, hrest, hws⟩ := extractUInt64_decimal h
  exact ⟨rest, by rw [nextUInt64, hrest]; rfl, hws⟩

theorem readsAs_nextInt {n : ℕ} (hn : n < 2 ^ 31) : ReadsAs nextInt (decimal n) n := by
  intro s ws h
  obtain ⟨rest, hrest, hws⟩ := extractNumber_decimal h
  refine ⟨rest, ?_, hws⟩
  rw [nextInt, hrest, Option.bind_some]
  show (if -(2 ^ 31) ≤ (n : ℤ) ∧ (n : ℤ) < 2 ^ 31 then some ((n : ℤ), rest) else none) = _
  rw [if_pos ⟨by omega, by omega⟩]

end Extracting

/-! ### Tables -/

section Tables

variable {ρ : Type} {cells : ρ → List (List Char)} {rows : List ρ} {text : List Char}

/-- **A text shows a table**: there is a line for each row, which begins with the words of the row,
however they are padded. -/
def Shows (cells : ρ → List (List Char)) (rows : List ρ) (text : List Char) : Prop :=
  ∃ lines : List (List Char), (∀ line ∈ lines, '\n' ∉ line) ∧
    text = lines.flatMap (· ++ ['\n']) ∧
    List.Forall₂ (fun row line => ∃ more, Words.words isspace line = cells row ++ more) rows lines

/-- A table as it is read: line by line. -/
theorem Shows.map_pieces {β : Type} (h : Shows cells rows text) {read : List Char → β} {f : ρ → β}
    (hread : ∀ row line more, Words.words isspace line = cells row ++ more → read line = f row) :
    (Words.pieces '\n' text).map read = rows.map f := by
  obtain ⟨lines, hlines, rfl, hrows⟩ := h
  rw [Words.pieces_flatMap hlines]
  clear hlines
  induction hrows with
  | nil => rfl
  | cons hrow _ ih =>
    obtain ⟨more, hmore⟩ := hrow
    rw [List.map_cons, List.map_cons, hread _ _ _ hmore, ih]

end Tables

/-! ### `/proc/net/dev` -/

namespace NetMonitor

/-- The numbers of a line, as many as are asked for; one that fails is the last to be stored. -/
def extractNumbers : ℕ → List Char → List UInt64
  | 0, _ => []
  | count + 1, s =>
    match extractUInt64 s with
    | (n, some rest) => n :: extractNumbers count rest
    | (n, none) => [n]

/-- What is read from a line: the name of the interface and twelve numbers. -/
def procLine (line : List Char) : ProcLine where
  iface := .ofList (Words.next isspace line).1
  numbers := extractNumbers 12 (Words.next isspace line).2

/-- The lines of the file, without the two of the heading. -/
def procLines (text : List Char) : List ProcLine := ((Words.pieces '\n' text).drop 2).map procLine

/-- A row of the table: an interface and its counters, in the order of the columns. -/
structure Interface where
  name : String
  rcvBytes : UInt64 := 0
  rcvPackets : UInt64 := 0
  errIn : UInt64 := 0
  dropIn : UInt64 := 0
  rcvFifo : UInt64 := 0
  frame : UInt64 := 0
  rcvCompressed : UInt64 := 0
  multicast : UInt64 := 0
  sndBytes : UInt64 := 0
  sndPackets : UInt64 := 0
  errOut : UInt64 := 0
  dropOut : UInt64 := 0
  deriving DecidableEq, Repr

/-- The counters of a row, in the order of the columns. -/
def Interface.counters (i : Interface) : List UInt64 :=
  [i.rcvBytes, i.rcvPackets, i.errIn, i.dropIn, i.rcvFifo, i.frame, i.rcvCompressed, i.multicast,
    i.sndBytes, i.sndPackets, i.errOut, i.dropOut]

/-- The words of a row: a colon stands behind the name. -/
def Interface.cells (i : Interface) : List (List Char) :=
  (i.name.toList ++ [':']) :: i.counters.map fun n => decimal n.toNat

/-- The counters of an interface that are used. -/
def Interface.stat (i : Interface) : NetStat where
  name := i.name
  counters :=
    { rcvBytes := i.rcvBytes
      rcvPackets := i.rcvPackets
      sndBytes := i.sndBytes
      sndPackets := i.sndPackets }
  errIn := i.errIn
  errOut := i.errOut
  dropIn := i.dropIn
  dropOut := i.dropOut

/-- A text shows a table of interfaces, under a heading of two lines. -/
def ShowsInterfaces (rows : List Interface) (text : List Char) : Prop :=
  ∃ first second table, '\n' ∉ first ∧ '\n' ∉ second ∧
    text = first ++ '\n' :: (second ++ '\n' :: table) ∧ Shows Interface.cells rows table

theorem extractNumbers_decimals {ns : List UInt64} {s : List Char} {more : List (List Char)}
    (h : Words.words isspace s = (ns.map fun n => decimal n.toNat) ++ more) :
    extractNumbers ns.length s = ns := by
  induction ns generalizing s with
  | nil => rfl
  | cons n ns ih =>
    obtain ⟨rest, hrest, hws⟩ := extractUInt64_decimal (n := n) h
    rw [List.length_cons, extractNumbers, hrest]
    exact congrArg (n :: ·) (ih hws)

/-- **A row is read as what it says**, unless it is that of the loopback interface. -/
theorem netStat_procLine (i : Interface) (line : List Char) (more : List (List Char))
    (h : Words.words isspace line = i.cells ++ more) :
    netStat (procLine line) = if i.name = "lo" then none else some i.stat := by
  obtain ⟨hw, hne, hws⟩ := Words.words_eq_cons_iff.mp h
  have hiface : (procLine line).iface = .ofList (i.name.toList ++ [':']) :=
    congrArg String.ofList hw
  have hread : extractNumbers i.counters.length (Words.next isspace line).2 = i.counters :=
    extractNumbers_decimals hws
  have hnumbers : (procLine line).numbers = i.counters := hread
  have hname : ifaceName (procLine line).iface = i.name := by
    rw [hiface, ifaceName, String.toList_ofList, List.getLast?_concat, if_pos rfl,
      List.dropLast_concat, String.ofList_toList]
  have hnonempty : (procLine line).iface ≠ "" := by
    rw [hiface]
    intro heq
    have hlist := congrArg String.toList heq
    rw [String.toList_ofList] at hlist
    simp at hlist
  rw [netStat, hname, hnumbers]
  simp only [hnonempty, false_or]
  rfl

/-- **The table is read, however it is laid out**, without the loopback interface. -/
theorem getNetStatsFromProc_procLines {rows : List Interface} {text : List Char}
    (h : ShowsInterfaces rows text) :
    getNetStatsFromProc (procLines text) =
      (rows.filter fun i => i.name ≠ "lo").map Interface.stat := by
  obtain ⟨first, second, table, hfirst, hsecond, rfl, htable⟩ := h
  have hread := htable.map_pieces netStat_procLine
  rw [procLines, Words.pieces_append_cons hfirst, Words.pieces_append_cons hsecond,
    List.drop_succ_cons, List.drop_succ_cons, List.drop_zero, getNetStatsFromProc]
  calc ((Words.pieces '\n' table).map procLine).filterMap netStat
      = ((Words.pieces '\n' table).map fun line => netStat (procLine line)).filterMap id := by
        rw [List.filterMap_map, List.filterMap_map]
        rfl
    _ = (rows.map fun i => if i.name = "lo" then none else some i.stat).filterMap id := by
        rw [hread]
    _ = (rows.filter fun i => i.name ≠ "lo").map Interface.stat := by
        clear htable hread
        induction rows with
        | nil => rfl
        | cons i rows ih =>
          by_cases hlo : i.name = "lo"
          · rw [List.map_cons, if_pos hlo, List.filterMap_cons_none rfl, ih,
              List.filter_cons_of_neg (by simpa using hlo)]
          · rw [List.map_cons, if_neg hlo, List.filterMap_cons_some (f := id) rfl, ih,
              List.filter_cons_of_pos (by simpa using hlo), List.map_cons]

/-- The messages of one call after another, each at its time. -/
def updates (last : LastNetInfo) : List (ℤ × List ProcLine) → List NetInfo
  | [] => []
  | (now, lines) :: rs => (updateOnce last now lines).2 ++ updates (updateOnce last now lines).1 rs

/-- The rows of an interface in a series of tables, each with its time. -/
def samples (tables : List (ℤ × List Interface)) (name : String) : List (ℤ × Interface) :=
  tables.flatMap fun (now, rows) => (rows.filter fun i => i.name = name).map (now, ·)

theorem publish_name (now : ℤ) (stat : NetStat) (last : Option (NetStat × ℤ)) :
    (publish now stat last).name = stat.name := by
  rcases last with _ | ⟨old, timepoint⟩
  · rfl
  · simp only [publish]
    split <;> rfl

/-- The rows of an interface that are left when the loopback interface is taken out. -/
theorem filter_stat (rows : List Interface) {name : String} (hname : name ≠ "lo") :
    (((rows.filter fun i => i.name ≠ "lo").map Interface.stat).filter fun s => s.name = name) =
      (rows.filter fun i => i.name = name).map Interface.stat := by
  rw [List.filter_map, List.filter_filter]
  refine congrArg (List.map Interface.stat) (List.filter_congr fun i _ => ?_)
  show (decide (i.name = name) && decide (i.name ≠ "lo")) = decide (i.name = name)
  rcases eq_or_ne i.name name with rfl | hne
  · simp [hname]
  · simp [hne]

/-- **The messages of an interface are made of its rows alone**, each of them against the row
before it, however the tables are laid out. -/
theorem filter_updates (last : LastNetInfo) {texts : List (ℤ × List Char)}
    {tables : List (ℤ × List Interface)} {name : String} (hname : name ≠ "lo")
    (h : List.Forall₂ (fun text table => text.1 = table.1 ∧ ShowsInterfaces table.2 text.2)
      texts tables) :
    (updates last (texts.map fun text => (text.1, procLines text.2))).filter
        (fun n => n.name = name) =
      Successive.run (fun s => some (s.2.stat, s.1)) (fun s l => publish s.1 s.2.stat l) (last name)
        (samples tables name) := by
  induction h generalizing last with
  | nil => rfl
  | @cons text table texts tables hshows _ ih =>
    obtain ⟨now, text⟩ := text
    obtain ⟨now', rows⟩ := table
    obtain ⟨rfl, hrows⟩ : now = now' ∧ ShowsInterfaces rows text := hshows
    have hq : ∀ (l : Option (NetStat × ℤ)) (stat : NetStat),
        (publish now stat l).name = name ↔ stat.name = name := by
      intro l stat
      rw [publish_name]
    obtain ⟨hout, hstate⟩ := Keyed.run_successive
      (f := fun l stat => (some (stat, now), publish now stat l)) (q := fun n => n.name = name)
      (fun _ _ => rfl) hq last (getNetStatsFromProc (procLines text))
    rw [getNetStatsFromProc_procLines hrows, filter_stat rows hname, Successive.run_map] at hout
    rw [getNetStatsFromProc_procLines hrows, filter_stat rows hname, Successive.final_map] at hstate
    have hsamples : samples ((now, rows) :: tables) name = _ := List.flatMap_cons
    rw [List.map_cons, updates, List.filter_append, ih, hsamples, Successive.run_append,
      Successive.run_map, Successive.final_map]
    rw [← getNetStatsFromProc_procLines hrows] at hout hstate
    exact congrArg₂ (· ++ ·) hout (congrArg (Successive.run _ _ · _) hstate)

end NetMonitor

/-! ### `/proc/diskstats` -/

namespace DiskMonitor

/-- What is read from a line, if all of it can be read: the numbers of the device, its name, and
eleven counters, two of which are not used. -/
def line (s : List Char) : Option Line := do
  let (_, s) ← nextInt s
  let (_, s) ← nextInt s
  let (name, s) ← nextWord s
  let (reads, s) ← nextUInt64 s
  let (_, s) ← nextUInt64 s
  let (sectorsRead, s) ← nextUInt64 s
  let (readTimeMs, s) ← nextUInt64 s
  let (writes, s) ← nextUInt64 s
  let (_, s) ← nextUInt64 s
  let (sectorsWritten, s) ← nextUInt64 s
  let (writeTimeMs, s) ← nextUInt64 s
  let (ioInProgress, s) ← nextUInt64 s
  let (ioTimeMs, s) ← nextUInt64 s
  let (weightedIoTimeMs, _) ← nextUInt64 s
  pure
    { name := .ofList name
      curr :=
        { reads, writes, sectorsRead, sectorsWritten, readTimeMs, writeTimeMs, ioInProgress,
          ioTimeMs, weightedIoTimeMs } }

/-- What there is to read in a call, from the text of the file. -/
def Reading.ofText (instant : Instant) (text : List Char) : Reading :=
  ⟨instant, (Words.pieces '\n' text).map line⟩

/-- A row of the table: a device and its counters. -/
structure Device where
  major : ℕ
  minor : ℕ
  major_lt : major < 2 ^ 31
  minor_lt : minor < 2 ^ 31
  disk : Line
  readsMerged : UInt64
  writesMerged : UInt64

/-- The words of a row, in the order of the columns. -/
def Device.cells (d : Device) : List (List Char) :=
  [decimal d.major, decimal d.minor, d.disk.name.toList] ++
    [d.disk.curr.reads, d.readsMerged, d.disk.curr.sectorsRead, d.disk.curr.readTimeMs,
      d.disk.curr.writes, d.writesMerged, d.disk.curr.sectorsWritten, d.disk.curr.writeTimeMs,
      d.disk.curr.ioInProgress, d.disk.curr.ioTimeMs, d.disk.curr.weightedIoTimeMs].map
      fun n => decimal n.toNat

/-- **A row is read as what it says.** -/
theorem line_cells (d : Device) (text : List Char) (more : List (List Char))
    (h : Words.words isspace text = d.cells ++ more) : line text = some d.disk := by
  refine (readsAs_nextInt d.major_lt).bind h fun s h => ?_
  refine (readsAs_nextInt d.minor_lt).bind h fun s h => ?_
  refine (readsAs_nextWord _).bind h fun s h => ?_
  refine (readsAs_nextUInt64 _).bind h fun s h => ?_
  refine (readsAs_nextUInt64 _).bind h fun s h => ?_
  refine (readsAs_nextUInt64 _).bind h fun s h => ?_
  refine (readsAs_nextUInt64 _).bind h fun s h => ?_
  refine (readsAs_nextUInt64 _).bind h fun s h => ?_
  refine (readsAs_nextUInt64 _).bind h fun s h => ?_
  refine (readsAs_nextUInt64 _).bind h fun s h => ?_
  refine (readsAs_nextUInt64 _).bind h fun s h => ?_
  refine (readsAs_nextUInt64 _).bind h fun s h => ?_
  refine (readsAs_nextUInt64 _).bind h fun s h => ?_
  refine (readsAs_nextUInt64 _).bind h fun s _ => ?_
  rw [String.ofList_toList]
  rfl

/-- **The table is read, however it is laid out.** -/
theorem ofText_shows (instant : Instant) {devices : List Device} {text : List Char}
    (h : Shows Device.cells devices text) :
    Reading.ofText instant text = ⟨instant, devices.map fun d => some d.disk⟩ :=
  congrArg (Reading.mk instant) (h.map_pieces line_cells)

/-- The rows of a disk in a series of tables, each with its instant. -/
def deviceSamples (tables : List (Instant × List Device)) (name : String) :
    List (Instant × Line) :=
  tables.flatMap fun (instant, devices) =>
    (devices.filter fun d => d.disk.name = name).map fun d => (instant, d.disk)

/-- The lines of a disk in a table, if it is not a virtual one. -/
theorem filter_disks (instant : Instant) (devices : List Device) (name : String) :
    ((Reading.mk instant (devices.map fun d => some d.disk)).disks.filter
        fun line => line.name = name) =
      if isVirtual name then [] else
        (devices.filter fun d => d.disk.name = name).map Device.disk := by
  have hread : (devices.map fun d => some d.disk).reduceOption = devices.map Device.disk := by
    show (devices.map fun d => some d.disk).filterMap id = _
    rw [List.filterMap_map]
    exact congrFun List.filterMap_eq_map devices
  rw [Reading.disks, hread, List.filter_filter, List.filter_map]
  rcases h : isVirtual name with _ | _
  · refine congrArg (List.map Device.disk) (List.filter_congr fun d _ => ?_)
    show (decide (d.disk.name = name) && !isVirtual d.disk.name) = decide (d.disk.name = name)
    rcases eq_or_ne d.disk.name name with rfl | hne
    · simp [h]
    · simp [hne]
  · rw [if_pos rfl, List.map_eq_nil_iff, List.filter_eq_nil_iff]
    rintro d -
    show ¬(decide (d.disk.name = name) && !isVirtual d.disk.name) = true
    rcases eq_or_ne d.disk.name name with rfl | hne
    · simp [h]
    · simp [hne]

/-- The samples of a disk, from the texts that show the tables. -/
theorem samples_ofText {texts : List (Instant × List Char)} {tables : List (Instant × List Device)}
    (h : List.Forall₂ (fun text table => text.1 = table.1 ∧ Shows Device.cells table.2 text.2)
      texts tables) (name : String) :
    samples (texts.map fun text => Reading.ofText text.1 text.2) name =
      if isVirtual name then [] else deviceSamples tables name := by
  induction h with
  | nil => simp [samples, deviceSamples]
  | @cons text table texts tables hshows _ ih =>
    obtain ⟨instant, text⟩ := text
    obtain ⟨instant', devices⟩ := table
    obtain ⟨rfl, hdevices⟩ : instant = instant' ∧ Shows Device.cells devices text := hshows
    rw [List.map_cons, samples, List.flatMap_cons, ofText_shows instant hdevices, filter_disks]
    rw [samples] at ih
    rw [ih, deviceSamples, deviceSamples, List.flatMap_cons]
    split
    · rfl
    · rw [List.map_map]
      rfl

end DiskMonitor

/-! ### What is published -/

namespace NetMonitor

/-- Nothing is published of the loopback interface. -/
theorem name_ne_lo {last : LastNetInfo} {rs : List (ℤ × List ProcLine)} {info : NetInfo}
    (h : info ∈ updates last rs) : info.name ≠ "lo" := by
  induction rs generalizing last with
  | nil => cases h
  | cons r rs ih =>
    obtain ⟨now, lines⟩ := r
    rcases List.mem_append.mp h with h | h
    · obtain ⟨o, ho, rfl⟩ := List.mem_map.mp h
      obtain ⟨hmem, l, hl⟩ := Keyed.exists_of_mem_run ho
      rw [hl]
      show (publish now o.1 l).name ≠ "lo"
      rw [publish_name]
      obtain ⟨line, -, hline⟩ := List.mem_filterMap.mp hmem
      rw [netStat] at hline
      simp only [Option.ite_none_left_eq_some, Option.some.injEq] at hline
      obtain ⟨hne, hstat⟩ := hline
      rw [← hstat]
      exact fun hlo => hne (.inr hlo)
    · exact ih h

end NetMonitor

/-- **What the collectors publish is made of the rows of the tables.** Whatever the padding of the
columns, the messages of an interface, or of a disk, in a series of calls are computed from its own
rows, each of them against the row before it; there are none of the loopback interface and of
virtual disks. -/
theorem collectors_read_tables {netTexts : List (ℤ × List Char)}
    {netTables : List (ℤ × List NetMonitor.Interface)}
    {diskTexts : List (DiskMonitor.Instant × List Char)}
    {diskTables : List (DiskMonitor.Instant × List DiskMonitor.Device)}
    (hnet : List.Forall₂
      (fun text table => text.1 = table.1 ∧ NetMonitor.ShowsInterfaces table.2 text.2)
      netTexts netTables)
    (hdisk : List.Forall₂
      (fun text table => text.1 = table.1 ∧ Shows DiskMonitor.Device.cells table.2 text.2)
      diskTexts diskTables) (name : String) :
    (NetMonitor.updates (fun _ => none)
        (netTexts.map fun text => (text.1, NetMonitor.procLines text.2))).filter
        (fun n => n.name = name) =
      (if name = "lo" then [] else
        Successive.run (fun s => some (s.2.stat, s.1))
          (fun s l => NetMonitor.publish s.1 s.2.stat l) none (NetMonitor.samples netTables name)) ∧
    DiskMonitor.published
        (diskTexts.map fun text => DiskMonitor.Reading.ofText text.1 text.2) name =
      if DiskMonitor.isVirtual name then [] else
        Successive.run (fun s => DiskMonitor.remember (binary64 s.1.time) s.2)
          (fun s l => DiskMonitor.publish (binary64 s.1.time) l s.2) {}
          (DiskMonitor.deviceSamples diskTables name) := by
  constructor
  · split
    · next hlo =>
      refine List.filter_eq_nil_iff.mpr fun info hinfo => ?_
      have hne := NetMonitor.name_ne_lo hinfo
      simpa [hlo] using hne
    · next hlo => exact NetMonitor.filter_updates _ hlo hnet
  · rw [DiskMonitor.published, DiskMonitor.filter_updates, DiskMonitor.samples_ofText hdisk]
    split <;> rfl

/-- `/proc/net/dev` with one interface. -/
def devText : List Char := "face\nbytes\n eth0: 7 1 0  2 0 0 0 0 5 1 0 0\n".toList

/-- The interface in it. -/
def devTable : List NetMonitor.Interface :=
  [{ name := "eth0", rcvBytes := 7, rcvPackets := 1, dropIn := 2, sndBytes := 5, sndPackets := 1 }]

theorem showsInterfaces_devText : NetMonitor.ShowsInterfaces devTable devText := by
  refine ⟨"face".toList, "bytes".toList, " eth0: 7 1 0  2 0 0 0 0 5 1 0 0\n".toList,
    by decide +kernel, by decide +kernel, by decide +kernel,
    [" eth0: 7 1 0  2 0 0 0 0 5 1 0 0".toList], by decide +kernel, by decide +kernel, ?_⟩
  exact .cons ⟨[], by decide +kernel⟩ .nil

/-- `/proc/diskstats` with one disk. -/
def diskstatsText : List Char := " 8  0 sda 5 1 8 3 2 0 4 1 0 4 4 9\n".toList

/-- The disk in it. -/
def diskstatsTable : List DiskMonitor.Device :=
  [{ major := 8, minor := 0, major_lt := by decide, minor_lt := by decide
     disk :=
       { name := "sda"
         curr :=
           { reads := 5, sectorsRead := 8, readTimeMs := 3, writes := 2, sectorsWritten := 4,
             writeTimeMs := 1, ioTimeMs := 4, weightedIoTimeMs := 4 } }
     readsMerged := 1, writesMerged := 0 }]

theorem shows_diskstatsText : Shows DiskMonitor.Device.cells diskstatsTable diskstatsText := by
  refine ⟨[" 8  0 sda 5 1 8 3 2 0 4 1 0 4 4 9".toList], by decide +kernel, by decide +kernel, ?_⟩
  exact .cons ⟨["9".toList], by decide +kernel⟩ .nil

theorem collectors_read_tables_example :
    (NetMonitor.updates (fun _ => none)
        ([(0, devText), (10000000000, devText)].map fun text =>
          (text.1, NetMonitor.procLines text.2))).filter (fun n => n.name = "eth0") =
      Successive.run (fun s => some (s.2.stat, s.1))
        (fun s l => NetMonitor.publish s.1 s.2.stat l) none
        (NetMonitor.samples [(0, devTable), (10000000000, devTable)] "eth0") ∧
    DiskMonitor.published
        ([(⟨5000000000, by decide⟩, diskstatsText)].map fun text =>
          DiskMonitor.Reading.ofText text.1 text.2) "sda" =
      Successive.run (fun s => DiskMonitor.remember (binary64 s.1.time) s.2)
        (fun s l => DiskMonitor.publish (binary64 s.1.time) l s.2) {}
        (DiskMonitor.deviceSamples [(⟨5000000000, by decide⟩, diskstatsTable)] "sda") := by
  have hnet : ∀ {rows : List NetMonitor.Interface} {text : List Char} (t : ℤ),
      NetMonitor.ShowsInterfaces rows text → List.Forall₂
        (fun text table => text.1 = table.1 ∧ NetMonitor.ShowsInterfaces table.2 text.2)
        [((0 : ℤ), text), (t, text)] [(0, rows), (t, rows)] := fun t h =>
    .cons ⟨rfl, h⟩ (.cons ⟨rfl, h⟩ .nil)
  have hdisk : ∀ {rows : List DiskMonitor.Device} {text : List Char} (t : DiskMonitor.Instant),
      Shows DiskMonitor.Device.cells rows text → List.Forall₂
        (fun text table => text.1 = table.1 ∧ Shows DiskMonitor.Device.cells table.2 text.2)
        [(t, text)] [(t, rows)] := fun t h =>
    .cons ⟨rfl, h⟩ .nil
  have hnet := hnet 10000000000 showsInterfaces_devText
  have hdisk := hdisk ⟨5000000000, by decide⟩ shows_diskstatsText
  have hlo : ¬"eth0" = "lo" := by decide
  have hvirtual : ¬DiskMonitor.isVirtual "sda" = true := by decide +kernel
  exact ⟨(collectors_read_tables hnet hdisk "eth0").1.trans (if_neg hlo),
    (collectors_read_tables hnet hdisk "sda").2.trans (if_neg hvirtual)⟩

end MonitorSystem
