import Mathlib.Data.Rat.Floor
import MonitorSystem.Library.SqlText
import MonitorSystem.Manager.StoredRows

/-!
# The texts of the manager's statements

`writeToMysql` and `resolveWorkerScope` (`manager/src/HostManager.cpp`) do not bind parameters:
they put texts that come from workers – names of hosts, interfaces, disks and instances, versions,
roles, the id of a worker – into the text of a statement, each through `quoteSqlString`. What
`mysql_real_escape_string` does is a parameter here, as are the decimals in which a stream writes a
number; of the one it is asked that a server reads back what has been escaped, of the other that
they are decimals of this number.

Then no text can be anything but a value: every statement is one INSERT of the table, the columns
and the values that it was made for, and the query for a worker compares with the id of this
worker (`sent_as_meant`). The statements are handed to `mysql_query` as strings of C, which end at
the first character zero; the escaping leaves none.
-/

namespace MonitorSystem

open Sql SqlText

namespace MysqlWriter

/-! ### The texts -/

/-- The name of a table. -/
def tableName : Table → String
  | .serverPerformance => "server_performance"
  | .serverNetDetail => "server_net_detail"
  | .serverSoftirqDetail => "server_softirq_detail"
  | .serverMemDetail => "server_mem_detail"
  | .serverDiskDetail => "server_disk_detail"
  | .serverMysqlDetail => "server_mysql_detail"
  | .serverRedisDetail => "server_redis_detail"

/-- A column; `role` is written in backticks. -/
def columnText (c : String) : List Char :=
  if c = "role" then backtick :: c.toList ++ [backtick] else c.toList

/-- `quoteSqlString`. -/
def quoteSqlString (escape : List Char → List Char) (s : String) : List Char :=
  quoted escape s.toList

/-- A value, as it is written into a stream. A number is what `Platform.print` leaves of it. -/
def valueText (decimals : ℚ → String) (escape : List Char → List Char) : Value → List Char
  | .null => "NULL".toList
  | .int n => n.repr.toList
  | .num q => (decimals q).toList
  | .nonFinite .posInf => "inf".toList
  | .nonFinite .negInf => "-inf".toList
  | .nonFinite .nan => "nan".toList
  | .text s => quoteSqlString escape s

/-- **The text of an INSERT.** -/
def insertText (decimals : ℚ → String) (escape : List Char → List Char) (ins : Insert) :
    List Char :=
  "INSERT INTO ".toList ++ (tableName ins.table).toList ++ " (".toList ++
    ([',', ' '].intercalate (ins.row.map fun c => columnText c.1) ++ [')']) ++
    " VALUES (".toList ++
    ([','].intercalate (ins.row.map fun c => valueText decimals escape c.2) ++ [')'])

/-- The text of the query in `resolveWorkerScope`. -/
def workerQueryText (escape : List Char → List Char) (workerId : String) : List Char :=
  ("SELECT tenant_id, team_id, cluster_id, COALESCE(server_id, 0), token_hash ".toList ++
    "FROM worker_registrations WHERE worker_id=".toList) ++ quoteSqlString escape workerId ++
    " AND status='active' LIMIT 1".toList

/-- A string of C, which ends at the first character zero. -/
def cString (cs : List Char) : List Char := cs.takeWhile (· ≠ nul)

/-! ### What is read -/

/-- What a stream writes are decimals of the number that it writes. -/
def PrintsDecimals (p : Platform) (decimals : ℚ → String) : Prop :=
  ∀ q, numeral (decimals (p.print q)).toList = some (p.print q)

/-- A value, as a server takes it. -/
def literalOf : Value → Literal
  | .null => .null
  | .int n => .number n
  | .num q => .number q
  | .nonFinite _ => .null
  | .text s => .text s

/-- The values of statements: a floating-point number is finite, and has been printed. -/
def Written (p : Platform) : Value → Prop
  | .num q => ∃ q', q = p.print q'
  | .nonFinite _ => False
  | _ => True

/-- The part of a statement that a value is. -/
def valueToken (decimals : ℚ → String) : Value → Token
  | .null => .word "NULL"
  | .int n => .word n.repr
  | .num q => .word (decimals q)
  | .nonFinite _ => .word "nan"
  | .text s => .text s

def columnToken (c : String) : Token := if c = "role" then .name c else .word c

/-- A column that can be written without backticks. -/
def IsColumn (c : String) : Prop := c.toList ≠ [] ∧ c.toList.all isWordChar = true

instance : DecidablePred IsColumn := fun c =>
  inferInstanceAs (Decidable (c.toList ≠ [] ∧ c.toList.all isWordChar = true))

/-- The columns of an INSERT are words, and its values can be written. -/
structure Readable (p : Platform) (ins : Insert) : Prop where
  nonempty : ins.row ≠ []
  columns : ∀ c ∈ ins.row, IsColumn c.1
  values : ∀ c ∈ ins.row, Written p c.2

theorem cString_eq {cs : List Char} (h : nul ∉ cs) : cString cs = cs := by
  rw [cString, List.takeWhile_eq_self_iff]
  intro c hc
  refine decide_eq_true ?_
  rintro rfl
  exact h hc

theorem item_column {c : String} (h : IsColumn c) : Item (columnText c) (columnToken c) := by
  unfold columnText columnToken
  split
  · next hrole =>
    rw [hrole]
    have hname := item_name (u := "role".toList) (by decide)
    rwa [String.ofList_toList] at hname
  · have hword := item_word h.1 (List.all_eq_true.mp h.2)
    rwa [String.ofList_toList] at hword

theorem column_columnToken (c : String) : column (columnToken c) = some c := by
  unfold columnToken
  split <;> rfl

/-- A word that is a number is one item, and read as it. -/
theorem item_number {s : String} {q : ℚ} (h : numeral s.toList = some q) :
    Item s.toList (.word s) ∧ literal (.word s) = some (.number q) := by
  obtain ⟨hne, hword⟩ := isWordChar_of_numeral h
  have hitem := item_word hne hword
  rw [String.ofList_toList] at hitem
  refine ⟨hitem, ?_⟩
  have hnull : s ≠ "NULL" := by
    rintro rfl
    have : numeral "NULL".toList = none := by decide
    rw [this] at h
    cases h
  rw [literal, if_neg hnull, h, Option.map_some]

section Texts

variable {p : Platform} {decimals : ℚ → String} {escape : List Char → List Char}
  (hp : PrintsDecimals p decimals) (he : Escapes escape)
include hp he

/-- **A value is one item**, and read as the value that it is. -/
theorem item_value {v : Value} (h : Written p v) :
    Item (valueText decimals escape v) (valueToken decimals v) ∧
      literal (valueToken decimals v) = some (literalOf v) := by
  cases v with
  | null => exact ⟨item_word (u := "NULL".toList) (by decide) (List.all_eq_true.mp (by decide)), rfl⟩
  | int n => exact item_number (numeral_repr n)
  | num q =>
    obtain ⟨q, rfl⟩ := h
    exact item_number (hp q)
  | nonFinite x => exact h.elim
  | text s =>
    have hitem := item_quoted he s.toList
    rw [String.ofList_toList] at hitem
    exact ⟨hitem, rfl⟩

/-- **An INSERT is read as what it is.** -/
theorem read_insertText {ins : Insert} (h : Readable p ins) :
    read (insertText decimals escape ins) =
      some ⟨tableName ins.table, ins.row.map (·.1), ins.row.map fun c => literalOf c.2⟩ := by
  have htable : IsColumn (tableName ins.table) := by cases ins.table <;> decide +kernel
  have hus : List.Forall₂ Item (ins.row.map fun c => columnText c.1)
      (ins.row.map fun c => columnToken c.1) := by
    rw [List.forall₂_map_left_iff, List.forall₂_map_right_iff, List.forall₂_same]
    exact fun c hc => item_column (h.columns c hc)
  have hvs : List.Forall₂ Item (ins.row.map fun c => valueText decimals escape c.2)
      (ins.row.map fun c => valueToken decimals c.2) := by
    rw [List.forall₂_map_left_iff, List.forall₂_map_right_iff, List.forall₂_same]
    exact fun c hc => (item_value hp he (h.values c hc)).1
  have hcolumns : List.Forall₂ (fun t a => column t = some a)
      (ins.row.map fun c => columnToken c.1) (ins.row.map (·.1)) := by
    rw [List.forall₂_map_left_iff, List.forall₂_map_right_iff, List.forall₂_same]
    exact fun c _ => column_columnToken c.1
  have hvalues : List.Forall₂ (fun t a => literal t = some a)
      (ins.row.map fun c => valueToken decimals c.2) (ins.row.map fun c => literalOf c.2) := by
    rw [List.forall₂_map_left_iff, List.forall₂_map_right_iff, List.forall₂_same]
    exact fun c hc => (item_value hp he (h.values c hc)).2
  have hread := read_insert htable.1 (List.all_eq_true.mp htable.2) hus hvs hcolumns hvalues
    (by simpa using h.nonempty) (by simp)
  rwa [String.ofList_toList] at hread

/-- A value is written without a character zero. -/
theorem nul_notMem_valueText {v : Value} (h : Written p v) :
    nul ∉ valueText decimals escape v := by
  have hword : ∀ {s : String} {q : ℚ}, numeral s.toList = some q → nul ∉ s.toList := by
    rintro s q hs hnul
    exact absurd ((isWordChar_of_numeral hs).2 nul hnul) (by decide)
  cases v with
  | null => simp only [valueText]; decide
  | int n => exact hword (numeral_repr n)
  | num q =>
    obtain ⟨q, rfl⟩ := h
    exact hword (hp q)
  | nonFinite x => exact h.elim
  | text s =>
    simp only [valueText, quoteSqlString, quoted, List.cons_append, List.mem_cons, List.mem_append,
      List.not_mem_nil, or_false, not_or]
    exact ⟨by decide, he.noNul _, by decide⟩

/-- **The text of an INSERT is whole as a string of C.** -/
theorem cString_insertText {ins : Insert} (h : Readable p ins) :
    cString (insertText decimals escape ins) = insertText decimals escape ins := by
  have hcolumns : nul ∉ [',', ' '].intercalate (ins.row.map fun c => columnText c.1) := by
    refine notMem_intercalate (by decide) fun u hu => ?_
    obtain ⟨c, hc, rfl⟩ := List.mem_map.mp hu
    unfold columnText
    split
    · next hrole => rw [hrole]; decide
    · exact fun hnul => absurd (List.all_eq_true.mp (h.columns c hc).2 nul hnul) (by decide)
  have hvalues : nul ∉ [','].intercalate (ins.row.map fun c => valueText decimals escape c.2) := by
    refine notMem_intercalate (by decide) fun u hu => ?_
    obtain ⟨c, hc, rfl⟩ := List.mem_map.mp hu
    exact nul_notMem_valueText hp he (h.values c hc)
  have htable : nul ∉ (tableName ins.table).toList := by
    cases ins.table <;> decide +kernel
  have hverb : nul ∉ "INSERT INTO ".toList := by decide +kernel
  have hopen : nul ∉ " (".toList := by decide +kernel
  have hlist : nul ∉ " VALUES (".toList := by decide +kernel
  have hclose : nul ∉ [')'] := by decide
  refine cString_eq ?_
  unfold insertText
  refine List.not_mem_append (List.not_mem_append (List.not_mem_append ?_ ?_) hlist) ?_
  · exact List.not_mem_append (List.not_mem_append hverb htable) hopen
  · exact List.not_mem_append hcolumns hclose
  · exact List.not_mem_append hvalues hclose

end Texts

/-! ### The statements of `writeToMysql` -/

section Statements

variable {p : Platform} {data : HostMonitoringData}

@[simp] theorem written_text (s : String) : Written p (.text s) := trivial

@[simp] theorem written_int (n : ℤ) : Written p (.int n) := trivial

@[simp] theorem written_counter (n : UInt64) : Written p (counter n) := trivial

@[simp] theorem written_flag (b : Bool) : Written p (flag b) := trivial

@[simp] theorem written_roleValue (role : String) : Written p (roleValue role) := trivial

variable (p) in
/-- The values of a list. -/
def AllWritten (vs : List Value) : Prop := ∀ v ∈ vs, Written p v

@[simp] theorem allWritten_nil : AllWritten p [] := by rintro v ⟨⟩

@[simp] theorem allWritten_cons {v : Value} {vs : List Value} :
    AllWritten p (v :: vs) ↔ Written p v ∧ AllWritten p vs := List.forall_mem_cons

@[simp] theorem allWritten_append {us vs : List Value} :
    AllWritten p (us ++ vs) ↔ AllWritten p us ∧ AllWritten p vs := List.forall_mem_append

@[simp] theorem allWritten_printed (qs : List ℚ) : AllWritten p (printed p qs) := by
  intro v hv
  obtain ⟨q, -, rfl⟩ := List.mem_map.mp hv
  exact ⟨q, rfl⟩

@[simp] theorem allWritten_scopeValues : AllWritten p (scopeValues data) := by
  have hid : Written p (if data.scope.serverId = 0 then Value.null
      else .int data.scope.serverId.toNat) := by
    split <;> exact trivial
  simp [scopeValues, hid]

/-- A row of a detail table can be written if its own columns and values can. -/
theorem readable_detailRow {table : Table} {columns : List String} {values : List Value}
    (hc : ∀ c ∈ columns, IsColumn c) (hv : AllWritten p values) :
    Readable p (detailRow p data table columns values) := by
  have hcolumns : ∀ c ∈ scopeColumns ++ columns ++ ["timestamp"], IsColumn c := by
    rw [List.forall_mem_append, List.forall_mem_append]
    exact ⟨⟨by decide, hc⟩, by decide⟩
  have hvalues : AllWritten p (scopeValues data ++ values ++ [timestampValue p data]) := by
    simp [hv, timestampValue]
  refine ⟨?_, fun c hmem => ?_, fun c hmem => ?_⟩
  · simp [detailRow, insertInto, scopeColumns, scopeValues]
  · exact hcolumns c.1 (List.of_mem_zip hmem).1
  · exact hvalues c.2 (List.of_mem_zip hmem).2

/-- **The statements of `writeToMysql` can be written.** -/
theorem readable_of_mem {l : LastSamples} {ins : Insert} (h : ins ∈ (writeToMysql p l data).2) :
    Readable p ins := by
  obtain ⟨-, rfl | ⟨net, prev, rfl⟩ | ⟨s, prev, rfl⟩ | ⟨m, prev, rfl⟩ | ⟨disk, prev, rfl⟩ |
    ⟨m, prev, rfl⟩ | ⟨r, prev, rfl⟩⟩ := writeToMysql_cases h
  · exact readable_detailRow (by decide +kernel) (allWritten_printed _)
  all_goals exact readable_detailRow (by decide +kernel) (by simp)

end Statements

/-! ### The query for a worker -/

/-- The parts of the query for a worker, up to its id. -/
def workerQueryHead : List Token :=
  [.word "SELECT", .word "tenant_id", .mark ',', .word "team_id", .mark ',', .word "cluster_id",
    .mark ',', .word "COALESCE", .mark '(', .word "server_id", .mark ',', .word "0", .mark ')',
    .mark ',', .word "token_hash", .word "FROM", .word "worker_registrations", .word "WHERE",
    .word "worker_id", .mark '=']

/-- The parts of it after the id. -/
def workerQueryTail : List Token :=
  [.word "AND", .word "status", .mark '=', .text "active", .word "LIMIT", .word "1"]

/-- **The query for a worker is read as one that compares with its id.** -/
theorem lex_workerQueryText {escape : List Char → List Char} (he : Escapes escape)
    (workerId : String) :
    lex (cString (workerQueryText escape workerId)) =
      some (workerQueryHead ++ .text workerId :: workerQueryTail) := by
  have hcolumns : nul ∉
      "SELECT tenant_id, team_id, cluster_id, COALESCE(server_id, 0), token_hash ".toList := by
    decide +kernel
  have hfrom : nul ∉ "FROM worker_registrations WHERE worker_id=".toList := by decide +kernel
  have hactive : nul ∉ " AND status='active' LIMIT 1".toList := by decide +kernel
  have hid : nul ∉ quoteSqlString escape workerId := by
    simp only [quoteSqlString, quoted, List.cons_append, List.mem_cons, List.mem_append,
      List.not_mem_nil, or_false, not_or]
    exact ⟨by decide, he.noNul _, by decide⟩
  have hwhole : cString (workerQueryText escape workerId) = workerQueryText escape workerId := by
    refine cString_eq ?_
    unfold workerQueryText
    exact List.not_mem_append (List.not_mem_append (List.not_mem_append hcolumns hfrom) hid) hactive
  have hhead : run .between
      ("SELECT tenant_id, team_id, cluster_id, COALESCE(server_id, 0), token_hash ".toList ++
        "FROM worker_registrations WHERE worker_id=".toList) =
      some (workerQueryHead, .between) := by decide +kernel
  have hblank : run (.closed workerId.toList.reverse) [' '] =
      some ([.text workerId], .between) := by
    refine Eq.trans (b := some ([.text (String.ofList workerId.toList.reverse.reverse)], .between))
      rfl ?_
    rw [List.reverse_reverse, String.ofList_toList]
  have htail : run .between "AND status='active' LIMIT 1".toList =
      some (workerQueryTail.take 5, .inWord ['1']) := by decide +kernel
  have hsplit : " AND status='active' LIMIT 1".toList =
      [' '] ++ "AND status='active' LIMIT 1".toList := by decide +kernel
  have hclosed := run_append_eq hblank htail
  rw [← hsplit] at hclosed
  have hrun : run .between (workerQueryText escape workerId) =
      some (workerQueryHead ++ .text workerId :: workerQueryTail.take 5, .inWord ['1']) := by
    have hpieces := run_append_eq (run_append_eq hhead (run_quoted he workerId.toList)) hclosed
    rwa [List.append_nil] at hpieces
  rw [hwhole, lex, hrun]
  simp [Mode.finish, workerQueryTail]

/-! ### What is sent -/

/-- **What is sent is what is meant.** For every push, whatever characters are in its texts and in
the id of its worker: each statement of `writeToMysql` is read as the INSERT of one row, into the
table, with the columns and with the values that it was made for, and the query for the worker as
one that compares with this id. -/
theorem sent_as_meant {p : Platform} {decimals : ℚ → String} {escape : List Char → List Char}
    (hp : PrintsDecimals p decimals) (he : Escapes escape) (l : LastSamples)
    (data : HostMonitoringData) (workerId : String) :
    (∀ ins ∈ (writeToMysql p l data).2, read (cString (insertText decimals escape ins)) =
      some ⟨tableName ins.table, ins.row.map (·.1), ins.row.map fun c => literalOf c.2⟩) ∧
    lex (cString (workerQueryText escape workerId)) =
      some (workerQueryHead ++ .text workerId :: workerQueryTail) := by
  refine ⟨fun ins hins => ?_, lex_workerQueryText he workerId⟩
  have h := readable_of_mem hins
  rw [cString_insertText hp he h, read_insertText hp he h]

/-- A platform that writes whole numbers only. -/
def wholePlatform : Platform :=
  { Platform.exact with print := fun q => ⌊q⌋, localTime := fun _ => "2024-05-01 12:00:00" }

theorem printsDecimals_wholePlatform :
    PrintsDecimals wholePlatform fun q => (⌊q⌋ : ℤ).repr := by
  intro q
  have hprint : wholePlatform.print q = (⌊q⌋ : ℤ) := rfl
  rw [hprint]
  change numeral (⌊((⌊q⌋ : ℤ) : ℚ)⌋ : ℤ).repr.toList = _
  rw [Int.floor_intCast, numeral_repr]

/-- A host and an interface whose names would end the statement. -/
def dropTable : HostMonitoringData :=
  monitoringData wholePlatform
    { name := "web'); DROP TABLE server_performance; -- ", netInfo := [{ name := "eth\\'0" }] }
    { tenantId := "acme", teamId := "ops", clusterId := "c1", serverId := 7 } 0 {}

theorem sent_as_meant_dropTable :
    (writeToMysql wholePlatform .init dropTable).2.length = 2 ∧
    (∀ ins ∈ (writeToMysql wholePlatform .init dropTable).2,
      read (cString (insertText (fun q => (⌊q⌋ : ℤ).repr) backslashed ins)) =
        some ⟨tableName ins.table, ins.row.map (·.1), ins.row.map fun c => literalOf c.2⟩) ∧
    lex (cString (workerQueryText backslashed "w' OR 'a'='a")) =
      some (workerQueryHead ++ .text "w' OR 'a'='a" :: workerQueryTail) :=
  ⟨rfl, sent_as_meant printsDecimals_wholePlatform escapes_backslashed .init dropTable _⟩

end MysqlWriter

end MonitorSystem
