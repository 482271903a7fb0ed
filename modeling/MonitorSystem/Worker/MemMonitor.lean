import MonitorSystem.Manager.ClusterStatistics
import MonitorSystem.Worker.ProcText

/-!
# The memory of a machine

`MemMonitor::updateOnce` (`worker/src/monitor/MemMonitor.cpp`) reads `/proc/meminfo` line by line
with `ReadFile::ReadLine` (`worker/src/utils/ReadFile.cpp`), which stops at a line that is empty
and at one that is not ended. A line whose first word is one of nineteen sets a field of a local
structure to the second word; the others are skipped. The structure is not initialised: a field
that is not in the file is published as what happened to be in memory.

`read_shows` says what is read from a file, whatever the order of its lines and the padding in
them, and `read_determined_iff` when it does not depend on the memory of the worker.
-/

namespace MonitorSystem

/-! ### Reading a file -/

namespace ReadFile

/-- The words of a line. If a blank ends the line, the last extraction fails, and there is an empty
word in its place. -/
def args (line : List Char) : List (List Char) :=
  Words.words isspace line ++ if line.getLast?.any isspace then [[]] else []

/-- `ReadLine`, again and again until it fails. -/
def readLines (text : List Char) : List (List (List Char)) :=
  ((text.splitOn '\n').dropLast.takeWhile fun line => !line.isEmpty).map args

end ReadFile

namespace MemMonitor

/-- The fields of `MenInfo`, which are numbers of kibibytes. -/
inductive MenField
  | total | free | avail | buffers | cached | swapCached | active | inActive | activeAnon
  | inactiveAnon | activeFile | inactiveFile | dirty | writeback | anonPages | mapped
  | kReclaimable | sReclaimable | sUnreclaim
  deriving DecidableEq, Repr

/-- The word with which the line of a field begins. -/
def MenField.word : MenField → String
  | total => "MemTotal:"
  | free => "MemFree:"
  | avail => "MemAvailable:"
  | buffers => "Buffers:"
  | cached => "Cached:"
  | swapCached => "SwapCached:"
  | active => "Active:"
  | inActive => "Inactive:"
  | activeAnon => "Active(anon):"
  | inactiveAnon => "Inactive(anon):"
  | activeFile => "Active(file):"
  | inactiveFile => "Inactive(file):"
  | dirty => "Dirty:"
  | writeback => "Writeback:"
  | anonPages => "AnonPages:"
  | mapped => "Mapped:"
  | kReclaimable => "KReclaimable:"
  | sReclaimable => "SReclaimable:"
  | sUnreclaim => "SUnreclaim:"

/-- The fields, in the order in which their words are compared. -/
def MenField.all : List MenField :=
  [total, free, avail, buffers, cached, swapCached, active, inActive, activeAnon, inactiveAnon,
    activeFile, inactiveFile, dirty, writeback, anonPages, mapped, kReclaimable, sReclaimable,
    sUnreclaim]

/-- `MenInfo`. -/
abbrev MenInfo := MenField → ℤ

/-- What a line does. Nothing comes of it where `std::stoll` throws, or where there is no second
word to read. -/
def setLine (memInfo : MenInfo) (memDatas : List (List Char)) : Option MenInfo :=
  match MenField.all.find? fun f => f.word.toList = memDatas.headD [] with
  | none => some memInfo
  | some f => memDatas[1]?.bind fun w => (stoll (.ofList w)).map (Function.update memInfo f)

/-- What is read from the file, over what was in memory. -/
def read (memInfo : MenInfo) (text : List Char) : Option MenInfo :=
  (ReadFile.readLines text).foldlM setLine memInfo

/-- `KBToGB`. -/
def kbToGB : ℚ := 1000000

/-- The percentage that is in use. -/
def usedPercent (memInfo : MenInfo) : ℚ :=
  binary32 (binary64 (binary64 (binary64 (memInfo .total - memInfo .avail : ℤ) /
    binary64 (memInfo .total)) * 100))

/-- The message. A machine without memory, for which the percentage is no number, is left out. -/
def memDetail (memInfo : MenInfo) : Option MemInfo :=
  let gigabytes (f : MenField) : ℚ := binary32 (binary32 (memInfo f) / kbToGB)
  if memInfo .total = 0 then none
  else some
    { usedPercent := usedPercent memInfo
      total := gigabytes .total
      free := gigabytes .free
      avail := gigabytes .avail
      buffers := gigabytes .buffers
      cached := gigabytes .cached
      swapCached := gigabytes .swapCached
      active := gigabytes .active
      inactive := gigabytes .inActive
      activeAnon := gigabytes .activeAnon
      inactiveAnon := gigabytes .inactiveAnon
      activeFile := gigabytes .activeFile
      inactiveFile := gigabytes .inactiveFile
      dirty := gigabytes .dirty
      writeback := gigabytes .writeback
      anonPages := gigabytes .anonPages
      mapped := gigabytes .mapped
      kreclaimable := gigabytes .kReclaimable
      sreclaimable := gigabytes .sReclaimable
      sunreclaim := gigabytes .sUnreclaim }

/-- **`updateOnce`**, with what is in memory where the structure is put. -/
def updateOnce (memInfo : MenInfo) (text : List Char) : Option MemInfo :=
  (read memInfo text).bind memDetail

/-! ### The lines of a file -/

/-- A row of the file: a word, and a number of kibibytes. -/
structure Quantity where
  word : List Char
  value : ℕ
  value_lt : value < 2 ^ 63

/-- The words of a row. -/
def Quantity.cells (q : Quantity) : List (List Char) := [q.word, decimal q.value]

/-- What a table says about a field: the value of the last row that begins with its word. -/
def reported (rows : List Quantity) (f : MenField) : Option ℕ :=
  (rows.filter fun q => q.word = f.word.toList).getLast?.map Quantity.value

/-- A text that is not read any further: it begins with an empty line, or it has no line that is
ended. -/
def Unread (rest : List Char) : Prop := rest.head? = some '\n' ∨ '\n' ∉ rest

theorem mem_all (f : MenField) : f ∈ MenField.all := by
  cases f <;> decide

/-- The words are all different. -/
theorem nodup_words : (MenField.all.map fun f => f.word.toList).Nodup := by
  decide +kernel

theorem word_toList_injective (f g : MenField) (h : f.word.toList = g.word.toList) : f = g :=
  List.inj_on_of_nodup_map nodup_words (mem_all f) (mem_all g) h

/-- What a row does to the fields. -/
def Quantity.set (q : Quantity) (memInfo : MenInfo) : MenInfo := fun f =>
  if q.word = f.word.toList then q.value else memInfo f

/-- A line that begins with the words of a row. -/
theorem setLine_cells (memInfo : MenInfo) (q : Quantity) (more : List (List Char)) :
    setLine memInfo (q.cells ++ more) = some (q.set memInfo) := by
  rw [setLine]
  split
  · next h =>
    refine congrArg some (funext fun f => ?_)
    have hne := List.find?_eq_none.mp h f (mem_all f)
    have hword : f.word.toList ≠ q.word := by simpa [Quantity.cells] using hne
    rw [Quantity.set, if_neg hword.symm]
  · next f h =>
    have hword : f.word.toList = q.word := by simpa [Quantity.cells] using List.find?_some h
    have hstoll : stoll (.ofList (decimal q.value)) = some (q.value : ℤ) := by
      have htext : String.ofList (decimal q.value) = toString (q.value : ℤ) := by
        rw [← String.toList_inj, String.toList_ofList]
        exact (Sql.toList_toString_nat q.value).symm
      have hlt := q.value_lt
      rw [htext, stoll_toString ⟨by omega, by omega⟩]
    show (stoll (.ofList (decimal q.value))).map (Function.update memInfo f) = _
    rw [hstoll, Option.map_some]
    refine congrArg some (funext fun g => ?_)
    rcases eq_or_ne g f with rfl | hne
    · rw [Function.update_self, Quantity.set, if_pos hword.symm]
    · rw [Function.update_of_ne hne, Quantity.set, if_neg]
      intro heq
      exact hne (word_toList_injective g f (heq.symm.trans hword.symm))

/-- The lines of a table that are read, up to a text that is not. -/
theorem readLines_append {lines : List (List Char)} {rest : List Char}
    (hlines : ∀ line ∈ lines, '\n' ∉ line ∧ line ≠ []) (hrest : Unread rest) :
    ReadFile.readLines (lines.flatMap (· ++ ['\n']) ++ rest) = lines.map ReadFile.args := by
  induction lines with
  | nil =>
    rw [List.flatMap_nil, List.nil_append, List.map_nil, ReadFile.readLines]
    rcases hrest with hhead | hnot
    · obtain ⟨s, rfl⟩ : ∃ s, rest = '\n' :: s := by
        cases rest with
        | nil => cases hhead
        | cons c s => exact ⟨s, by rw [Option.some.inj hhead]⟩
      have hsplit : ('\n' :: s).splitOn '\n' = [] :: s.splitOn '\n' :=
        List.splitOn_append_cons_self_of_not_mem List.not_mem_nil s
      rw [hsplit, List.dropLast_cons_of_ne_nil (List.splitOn_ne_nil _ _)]
      rfl
    · rw [List.splitOn_eq_singleton hnot]
      rfl
  | cons line lines ih =>
    obtain ⟨hnot, hne⟩ := hlines line (by simp)
    have hsplit : ((line :: lines).flatMap (· ++ ['\n']) ++ rest).splitOn '\n' =
        line :: (lines.flatMap (· ++ ['\n']) ++ rest).splitOn '\n' := by
      rw [List.flatMap_cons, List.append_assoc, List.append_assoc, List.singleton_append]
      exact List.splitOn_append_cons_self_of_not_mem hnot _
    have hrec := ih fun l hl => hlines l (by simp [hl])
    rw [ReadFile.readLines] at hrec ⊢
    rw [hsplit, List.dropLast_cons_of_ne_nil (List.splitOn_ne_nil _ _),
      List.takeWhile_cons_of_pos (by simpa using hne), List.map_cons, List.map_cons, hrec]

theorem reported_cons (q : Quantity) (rows : List Quantity) (f : MenField) :
    reported (q :: rows) f =
      (reported rows f).or (if q.word = f.word.toList then some q.value else none) := by
  rw [reported, reported, List.filter_cons]
  by_cases h : q.word = f.word.toList
  · rw [if_pos (by simpa using h), if_pos h, List.getLast?_cons]
    generalize (rows.filter _).getLast? = last
    cases last <;> rfl
  · rw [if_neg (by simpa using h), if_neg h, Option.or_none]

/-- The rows of a table, one after the other. -/
theorem foldlM_setLine {rows : List Quantity} {args : List (List (List Char))}
    (h : List.Forall₂ (fun q words => ∃ more, words = q.cells ++ more) rows args)
    (memInfo : MenInfo) :
    args.foldlM setLine memInfo =
      some fun f => ((reported rows f).map Nat.cast).getD (memInfo f) := by
  induction h generalizing memInfo with
  | nil => rfl
  | @cons q words rows args hq _ ih =>
    obtain ⟨more, rfl⟩ := hq
    rw [List.foldlM_cons, setLine_cells, Option.bind_eq_bind, Option.bind_some, ih]
    refine congrArg some (funext fun f => ?_)
    rw [reported_cons]
    rcases reported rows f with _ | n
    · rw [Quantity.set]
      split <;> rfl
    · rfl

/-- **What is read from a file**, whatever the order of its lines and the padding in them: of each
field the last value in the table, and of a field that is not in it what was in memory. Nothing is
read from an empty line on. -/
theorem read_shows {rows : List Quantity} {table rest : List Char}
    (h : Shows Quantity.cells rows table) (hrest : Unread rest) (memInfo : MenInfo) :
    read memInfo (table ++ rest) =
      some fun f => ((reported rows f).map Nat.cast).getD (memInfo f) := by
  obtain ⟨lines, hlines, rfl, hrows⟩ := h
  have hne : ∀ line ∈ lines, line ≠ [] := by
    clear hlines
    induction hrows with
    | nil => simp
    | @cons q line rows lines hq _ ih =>
      obtain ⟨more, hmore⟩ := hq
      rintro l hl
      rcases List.mem_cons.mp hl with rfl | hl
      · rintro rfl
        rw [Words.words_nil] at hmore
        cases hmore
      · exact ih l hl
  rw [read, readLines_append (fun line hl => ⟨hlines line hl, hne line hl⟩) hrest]
  refine foldlM_setLine ?_ memInfo
  rw [List.forall₂_map_right_iff]
  refine hrows.imp fun q line hq => ?_
  obtain ⟨more, hmore⟩ := hq
  exact ⟨more ++ _, by rw [ReadFile.args, hmore, List.append_assoc]⟩

/-! ### The percentage -/

/-- A number between zero and one that is held stays there when it is rounded. -/
theorem round_mem_Icc {p : ℕ} {n q : ℚ} (hn : Digits.Holds 2 p n) (hpos : 0 < n) (hq : 0 ≤ q)
    (hle : q ≤ n) :
    0 ≤ Digits.round Digits.halfEven 2 p q ∧ Digits.round Digits.halfEven 2 p q ≤ n := by
  have hnear := Digits.isNearest_halfEven
  constructor
  · obtain ⟨hlow, -⟩ := Digits.round_mem (b := 2) hnear (by decide) p hq
    refine le_trans (mul_nonneg ?_ hq) hlow
    have hpow : (2 : ℚ) ^ (1 - (p : ℤ)) ≤ 2 ^ (1 : ℤ) :=
      zpow_le_zpow_right₀ (by norm_num) (by omega)
    rw [zpow_one] at hpow
    show (0 : ℚ) ≤ 1 - (2 : ℚ) ^ (1 - (p : ℤ)) / 2
    linarith
  · refine (le_abs_self _).trans (hn.abs_round_le hnear (by decide) hpos ?_)
    rwa [abs_of_nonneg hq]

theorem holds_natCast (p : ℕ) {n : ℕ} (h : n < 2 ^ p) : Digits.Holds 2 p (n : ℚ) :=
  ⟨n, 0, by rw [abs_of_nonneg (by positivity)]; exact_mod_cast h, by simp⟩

/-- **What is published is a percentage** exactly if no more is available than there is. -/
theorem isPercentage_usedPercent_iff {memInfo : MenInfo} {total avail : ℕ}
    (htotal : memInfo .total = total) (havail : memInfo .avail = avail) (hpos : 0 < total)
    (htotal_lt : total < 2 ^ 53) (havail_lt : avail < 2 ^ 53) :
    DiskMonitor.IsPercentage (usedPercent memInfo) ↔ avail ≤ total := by
  have hused : |(total : ℤ) - avail| < 2 ^ 53 := by
    rw [abs_lt]
    constructor <;> omega
  have hexact : usedPercent memInfo =
      binary32 (binary64 (binary64 (((total : ℤ) - avail : ℤ) / (total : ℚ)) * 100)) := by
    rw [usedPercent, htotal, havail, binary64_intCast hused, Int.cast_natCast,
      binary64_natCast htotal_lt]
  have htotal_pos : (0 : ℚ) < total := by exact_mod_cast hpos
  rw [hexact]
  constructor
  · rintro ⟨hnonneg, -⟩
    by_contra hlt
    -- a negative share stays negative
    have hneg : (((total : ℤ) - avail : ℤ) / (total : ℚ)) < 0 := by
      refine div_neg_of_neg_of_pos ?_ htotal_pos
      exact_mod_cast (by omega : (total : ℤ) - avail < 0)
    have hshare : binary64 (((total : ℤ) - avail : ℤ) / (total : ℚ)) < 0 :=
      Digits.round_neg Digits.isNearest_halfEven (by decide) (by decide) hneg
    have hpercent : binary64 (binary64 (((total : ℤ) - avail : ℤ) / (total : ℚ)) * 100) < 0 :=
      Digits.round_neg Digits.isNearest_halfEven (by decide) (by decide) (by linarith)
    have hfloat : binary32 (binary64 (binary64 (((total : ℤ) - avail : ℤ) / (total : ℚ)) * 100)) <
        0 :=
      Digits.round_neg Digits.isNearest_halfEven (by decide) (by decide) hpercent
    exact absurd hnonneg (not_le.mpr hfloat)
  · intro hle
    have hnonneg : (0 : ℚ) ≤ ((total : ℤ) - avail : ℤ) := by
      exact_mod_cast (by omega : (0 : ℤ) ≤ (total : ℤ) - avail)
    have hone : ((((total : ℤ) - avail : ℤ) : ℚ) / total) ≤ ((1 : ℕ) : ℚ) := by
      rw [Nat.cast_one, div_le_one htotal_pos]
      exact_mod_cast (by omega : (total : ℤ) - avail ≤ total)
    obtain ⟨hshare, hshare_le⟩ := round_mem_Icc (holds_natCast 53 (show 1 < 2 ^ 53 by norm_num))
      (by norm_num) (div_nonneg hnonneg htotal_pos.le) hone
    have hhundred : Digits.round Digits.halfEven 2 53 (((total : ℤ) - avail : ℤ) / (total : ℚ)) *
        100 ≤ ((100 : ℕ) : ℚ) := by
      have hscaled := mul_le_mul_of_nonneg_right hshare_le (show (0 : ℚ) ≤ 100 by norm_num)
      rwa [Nat.cast_one, one_mul] at hscaled
    obtain ⟨hpercent, hpercent_le⟩ := round_mem_Icc (n := ((100 : ℕ) : ℚ))
      (holds_natCast 53 (by norm_num)) (by norm_num)
      (mul_nonneg hshare (by norm_num : (0 : ℚ) ≤ 100)) hhundred
    obtain ⟨hfloat, hfloat_le⟩ := round_mem_Icc (n := ((100 : ℕ) : ℚ))
      (holds_natCast 24 (by norm_num)) (by norm_num) hpercent hpercent_le
    exact ⟨hfloat, by exact_mod_cast hfloat_le⟩

/-! ### What is published -/

/-- The message of a machine with memory. -/
theorem exists_memDetail (memInfo : MenInfo) (h : memInfo .total ≠ 0) :
    ∃ info, memDetail memInfo = some info ∧ info.usedPercent = usedPercent memInfo :=
  ⟨_, if_neg h, rfl⟩

/-- What is read does not depend on what was in memory if and only if every field is in the
table. -/
theorem read_determined_iff {rows : List Quantity} {table rest : List Char}
    (h : Shows Quantity.cells rows table) (hrest : Unread rest) :
    (∀ m m' : MenInfo, read m (table ++ rest) = read m' (table ++ rest)) ↔
      ∀ f, (reported rows f).isSome := by
  constructor
  · intro hsame f
    have heq := hsame (fun _ => 0) (fun _ => 1)
    rw [read_shows h hrest, read_shows h hrest, Option.some.injEq] at heq
    have hf := congrFun heq f
    rcases hreported : reported rows f with _ | n
    · rw [hreported] at hf
      cases hf
    · rfl
  · intro hall m m'
    rw [read_shows h hrest, read_shows h hrest]
    refine congrArg some (funext fun f => ?_)
    obtain ⟨n, hn⟩ := Option.isSome_iff_exists.mp (hall f)
    rw [hn]
    rfl

/-- `/proc/meminfo` with two lines. -/
def meminfoText : List Char := "MemTotal:  8 kB\nMemAvailable: 5 kB\n".toList

/-- The quantities in it. -/
def meminfoTable : List Quantity :=
  [⟨"MemTotal:".toList, 8, by decide⟩, ⟨"MemAvailable:".toList, 5, by decide⟩]

theorem shows_meminfoText : Shows Quantity.cells meminfoTable meminfoText := by
  refine ⟨["MemTotal:  8 kB".toList, "MemAvailable: 5 kB".toList], by decide +kernel,
    by decide +kernel, ?_⟩
  exact .cons ⟨["kB".toList], by decide +kernel⟩ (.cons ⟨["kB".toList], by decide +kernel⟩ .nil)

end MemMonitor

end MonitorSystem
