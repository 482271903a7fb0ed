import Mathlib.Algebra.Order.Floor.Defs
import Mathlib.Data.List.Forall2
import Mathlib.Data.Rat.Floor
import MonitorSystem.Manager.QueryPages
import MonitorSystem.Manager.QueryRecords
import MonitorSystem.Manager.StoredRows

/-!
# What a detail table makes of the rows that are inserted

The columns of the detail tables are declared with types
(`sql table/init_server_performance.sql`), and a value is stored as its column's type has it,
or the statement fails. `ColumnType.stored` is this conversion, and `Inserted` says what a
table holds once the statements of a sample have been executed: what it held before, and one
row for each of them.

Three of the tables are read back below, those of the soft interrupts and of the MySQL and the
Redis instances. All of them are written by `MysqlWriter.writeDetails` and read by
`QueryManager.pagedRecords`, so that one theorem takes a sample from one to the other
(`Inserted.handed_out`): a query whose first page holds all that is asked for hands out the
rows of before and exactly one row for each entry.
-/

namespace MonitorSystem

open Sql

/-! ### Columns -/

/-- The types of the columns. -/
inductive ColumnType where
  | varchar (n : ℕ)
  | tinyint
  | int
  | bigint
  | bigintUnsigned
  | float
  | datetime
  deriving DecidableEq, Repr

namespace ColumnType

/-- The nearest integer, a half being rounded away from zero. -/
def nearest (q : ℚ) : ℤ := if q < 0 then -⌊-q + 1 / 2⌋ else ⌊q + 1 / 2⌋

theorem nearest_intCast (n : ℤ) : nearest n = n := by
  have hfloor : ∀ k : ℤ, ⌊(k : ℚ) + 1 / 2⌋ = k := by
    intro k
    rw [Int.floor_intCast_add]
    norm_num
  unfold nearest
  split
  · have := hfloor (-n)
    push_cast at this
    omega
  · exact hfloor n

/-- What is stored in a column of integers from `low` up to `high`. -/
def integer (low high : ℤ) : Value → Option Value
  | .null => some .null
  | .int n => if low ≤ n ∧ n < high then some (.int n) else none
  | .num q => if low ≤ nearest q ∧ nearest q < high then some (.int (nearest q)) else none
  | _ => none

theorem integer_int {low high n : ℤ} (h : low ≤ n ∧ n < high) :
    integer low high (.int n) = some (.int n) := if_pos h

/-- **What is stored of a value**, nothing if the statement fails. A `FLOAT` keeps the six
digits that a stream writes. -/
def stored : ColumnType → Value → Option Value
  | .varchar n, .text s => if s.length ≤ n then some (.text s) else none
  | .datetime, .text s => some (.text s)
  | .varchar _, .null | .datetime, .null => some .null
  | .varchar _, _ | .datetime, _ => none
  | .tinyint, v => integer (-(2 ^ 7)) (2 ^ 7) v
  | .int, v => integer (-(2 ^ 31)) (2 ^ 31) v
  | .bigint, v => integer (-(2 ^ 63)) (2 ^ 63) v
  | .bigintUnsigned, v => integer 0 (2 ^ 64) v
  | .float, .text _ | .float, .nonFinite _ => none
  | .float, v => some v

theorem stored_varchar {n : ℕ} {s : String} (h : s.length ≤ n) :
    (varchar n).stored (.text s) = some (.text s) := if_pos h

@[simp] theorem stored_timestampValue (p : Platform) (data : HostMonitoringData) :
    datetime.stored (MysqlWriter.timestampValue p data) =
      some (MysqlWriter.timestampValue p data) := rfl

@[simp] theorem stored_float (q : ℚ) : float.stored (.num q) = some (.num q) := rfl

@[simp] theorem stored_counter (n : UInt64) :
    bigintUnsigned.stored (MysqlWriter.counter n) = some (MysqlWriter.counter n) := by
  have hlt := n.toNat_lt
  rw [stored, MysqlWriter.counter, integer_int ⟨by omega, by omega⟩]

@[simp] theorem stored_flag (b : Bool) :
    tinyint.stored (MysqlWriter.flag b) = some (MysqlWriter.flag b) := by
  have hrange : -(2 ^ 7) ≤ (if b then 1 else 0 : ℤ) ∧ (if b then 1 else 0 : ℤ) < 2 ^ 7 := by
    cases b <;> decide
  rw [stored, MysqlWriter.flag, integer_int hrange]

theorem stored_port {n : UInt32} (h : n.toNat < 2 ^ 31) :
    int.stored (.int n.toNat) = some (.int n.toNat) := by
  rw [stored, integer_int ⟨by omega, by omega⟩]

end ColumnType

open ColumnType

/-- The columns of `server_softirq_detail`, without the number of the row. -/
def softirqDetailColumns : List (String × ColumnType) :=
  [("tenant_id", varchar 128), ("team_id", varchar 128), ("cluster_id", varchar 128),
    ("server_id", bigint), ("server_name", varchar 255), ("cpu_name", varchar 64),
    ("hi", bigint), ("timer", bigint), ("net_tx", bigint), ("net_rx", bigint),
    ("block", bigint), ("irq_poll", bigint), ("tasklet", bigint), ("sched", bigint),
    ("hrtimer", bigint), ("rcu", bigint), ("hi_rate", float), ("timer_rate", float),
    ("net_tx_rate", float), ("net_rx_rate", float), ("block_rate", float),
    ("irq_poll_rate", float), ("tasklet_rate", float), ("sched_rate", float),
    ("hrtimer_rate", float), ("rcu_rate", float), ("timestamp", datetime)]

/-- The columns of `server_mysql_detail`. -/
def mysqlDetailColumns : List (String × ColumnType) :=
  [("tenant_id", varchar 128), ("team_id", varchar 128), ("cluster_id", varchar 128),
    ("server_id", bigint), ("server_name", varchar 255), ("instance", varchar 255),
    ("mysql_host", varchar 255), ("mysql_port", int), ("up", tinyint),
    ("version", varchar 128), ("role", varchar 32), ("max_connections", bigintUnsigned),
    ("threads_connected", bigintUnsigned), ("threads_running", bigintUnsigned),
    ("aborted_connects", bigintUnsigned), ("questions", bigintUnsigned),
    ("com_select", bigintUnsigned), ("com_insert", bigintUnsigned),
    ("com_update", bigintUnsigned), ("com_delete", bigintUnsigned),
    ("com_commit", bigintUnsigned), ("com_rollback", bigintUnsigned),
    ("slow_queries", bigintUnsigned), ("innodb_buffer_pool_read_requests", bigintUnsigned),
    ("innodb_buffer_pool_reads", bigintUnsigned), ("innodb_buffer_pool_hit_percent", float),
    ("innodb_row_lock_waits", bigintUnsigned), ("innodb_row_lock_time_avg_ms", float),
    ("replication_configured", tinyint), ("replication_running", tinyint),
    ("replication_lag_seconds", float), ("connection_used_percent", float), ("qps", float),
    ("tps", float), ("slow_queries_rate", float), ("innodb_row_lock_waits_rate", float),
    ("timestamp", datetime)]

/-- The columns of `server_redis_detail`. -/
def redisDetailColumns : List (String × ColumnType) :=
  [("tenant_id", varchar 128), ("team_id", varchar 128), ("cluster_id", varchar 128),
    ("server_id", bigint), ("server_name", varchar 255), ("instance", varchar 255),
    ("redis_host", varchar 255), ("redis_port", int), ("up", tinyint),
    ("version", varchar 128), ("role", varchar 32), ("uptime_in_seconds", bigintUnsigned),
    ("connected_clients", bigintUnsigned), ("blocked_clients", bigintUnsigned),
    ("maxclients", bigintUnsigned), ("connection_used_percent", float),
    ("used_memory", bigintUnsigned), ("maxmemory", bigintUnsigned),
    ("mem_fragmentation_ratio", float), ("memory_used_percent", float),
    ("total_commands_processed", bigintUnsigned), ("instantaneous_ops_per_sec", float),
    ("commands_per_sec", float), ("keyspace_hits", bigintUnsigned),
    ("keyspace_misses", bigintUnsigned), ("keyspace_hit_percent", float),
    ("expired_keys", bigintUnsigned), ("evicted_keys", bigintUnsigned),
    ("rejected_connections", bigintUnsigned), ("total_error_replies", bigintUnsigned),
    ("total_net_input_bytes", bigintUnsigned), ("total_net_output_bytes", bigintUnsigned),
    ("net_input_bytes_per_sec", float), ("net_output_bytes_per_sec", float),
    ("replication_configured", tinyint), ("master_link_up", tinyint),
    ("connected_slaves", bigintUnsigned), ("master_last_io_seconds_ago", float),
    ("slowlog_len", bigintUnsigned), ("slowlog_growth", float), ("timestamp", datetime)]

/-- The columns of the tables that are read back here; of the others nothing is said. -/
def Table.columns : Table → List (String × ColumnType)
  | .serverSoftirqDetail => softirqDetailColumns
  | .serverMysqlDetail => mysqlDetailColumns
  | .serverRedisDetail => redisDetailColumns
  | _ => []

/-! ### Rows -/

/-- What a column of a table makes of the row of a statement. -/
def Table.stored (table : Table) (ins : Row) (column : String) : Option Value :=
  (table.columns.lookup column).bind fun ty => ty.stored (ins.get column)

theorem Table.stored_eq {table : Table} {ins : Row} {column : String} {ty : ColumnType}
    {v : Value} (hty : table.columns.lookup column = some ty) (hget : ins.get column = v) :
    table.stored ins column = ty.stored v := by
  rw [Table.stored, hty, hget, Option.bind_some]

theorem Table.map_stored {table : Table} {ins : Row} {columns : List String}
    {types : List ColumnType} {vs : List Value}
    (htypes : columns.map (fun c => table.columns.lookup c) = types.map some)
    (hget : columns.map ins.get = vs) :
    columns.map (table.stored ins) = types.zipWith ColumnType.stored vs := by
  subst hget
  induction columns generalizing types with
  | nil => simp [List.map_eq_nil_iff.mp htypes.symm]
  | cons c cs ih =>
    cases types with
    | nil => cases htypes
    | cons ty types =>
      obtain ⟨hty, hrest⟩ := List.cons_eq_cons.mp htypes
      rw [List.map_cons, List.map_cons, List.zipWith_cons_cons, ih hrest,
        Table.stored_eq hty rfl]

/-- **A row as a table stores it.** -/
def Stores (table : Table) (ins row : Row) : Prop :=
  ∀ column v, table.stored ins column = some v → row.get column = v

theorem Stores.map_get {table : Table} {ins row : Row} (h : Stores table ins row)
    {columns : List String} {vs : List Value}
    (hvs : columns.map (table.stored ins) = vs.map some) : columns.map row.get = vs := by
  induction columns generalizing vs with
  | nil => exact (List.map_eq_nil_iff.mp hvs.symm).symm
  | cons c cs ih =>
    cases vs with
    | nil => cases hvs
    | cons v vs =>
      obtain ⟨hv, hrest⟩ := List.cons_eq_cons.mp hvs
      rw [List.map_cons, h c v hv, ih hrest]

/-- The texts of such a row. -/
theorem Stores.texts_eq {table : Table} {ins row : Row} (h : Stores table ins row)
    (d : Dialect) {columns : List String} {vs : List Value}
    (hvs : columns.map (table.stored ins) = vs.map some) :
    Row.texts d columns row = vs.map d.fetch := by
  rw [← h.map_get hvs, List.map_map]
  rfl

/-- The row that a table makes of the row of a statement, with its number. -/
def Table.storedRow (table : Table) (ins : Row) (id : ℤ) : Row :=
  ("id", .int id) :: table.columns.filterMap fun c => (c.2.stored (ins.get c.1)).map (c.1, ·)

theorem stores_storedRow (table : Table) (ins : Row) (id : ℤ) :
    Stores table ins (table.storedRow ins id) := by
  have hlookup : ∀ (l : List (String × ColumnType)) {column : String} {v : Value},
      ((l.lookup column).bind fun ty => ty.stored (ins.get column)) = some v →
        (l.filterMap fun c => (c.2.stored (ins.get c.1)).map (c.1, ·)).lookup column =
          some v := by
    intro l column v h
    induction l with
    | nil => cases h
    | cons c l ih =>
      rw [List.lookup_cons] at h
      by_cases hc : column = c.1
      · subst hc
        simp only [beq_self_eq_true, Option.bind_some] at h
        simp [h]
      · have hne : (column == c.1) = false := beq_false_of_ne hc
        rw [hne] at h
        cases hv : c.2.stored (ins.get c.1) <;> simp [hv, List.lookup_cons, hne, ih h]
  intro column v h
  have hid : column ≠ "id" := by
    rintro rfl
    have hnone : table.columns.lookup "id" = none := by cases table <;> decide
    rw [Table.stored, hnone] at h
    cases h
  rw [Table.storedRow, Row.get, List.lookup_cons, beq_false_of_ne hid]
  exact congrArg (Option.getD · .null) (hlookup table.columns h)

/-- Tables with these rows, if all of them are as they are declared. -/
def Tables.ofRows (rows : Table → List Row) (hrows : ∀ t, ∀ r ∈ rows t, Row.declared r = true)
    (hkeyed : ∀ t, ((rows t).map (·.get "id")).Nodup)
    (hbounded : ∀ t, (rows t).length < 2 ^ 31) : Tables where
  rows := rows
  typed t r hr c hc := Row.exists_text (hrows t r hr) (by
    simp only [List.mem_cons, List.not_mem_nil, or_false] at hc ⊢
    tauto)
  named t r hr := Row.exists_text (hrows t r hr) (by simp)
  stamped t r hr := Row.exists_text (hrows t r hr) (by simp)
  keyed := hkeyed
  bounded := hbounded

/-- Empty tables. -/
def Tables.empty : Tables := .ofRows (fun _ => []) (by simp) (by simp) (by simp)

/-- **A table before and after some statements**, each of which has put its row into the
table that it names. -/
def Inserted (inserts : List Insert) (table : Table) (before after : Tables) : Prop :=
  ∃ rows, (after.rows table).Perm (before.rows table ++ rows) ∧
    List.Forall₂ (fun ins row => Stores table ins.row row)
      (inserts.filter fun i => i.table = table) rows

/-! ### The rows of a sample -/

namespace MysqlWriter

/-- Each entry has a row, computed against some sample before it. -/
theorem forall₂_writeDetails {α τ : Type} (key : α → String) (sample : α → τ)
    (insert : α → τ → Insert) (last : String → τ) (es : List α) :
    List.Forall₂ (fun e ins => ∃ prev, ins = insert e prev) es
      (writeDetails key sample insert last es).2 := by
  induction es generalizing last with
  | nil => exact .nil
  | cons e es ih => exact .cons ⟨_, rfl⟩ (ih _)

/-- **Each entry has one statement** on its table. -/
theorem forall₂_writeToMysql (p : Platform) (l : LastSamples) (data : HostMonitoringData)
    (htenant : data.scope.tenantId ≠ "") (hteam : data.scope.teamId ≠ "")
    (hcluster : data.scope.clusterId ≠ "") :
    List.Forall₂ (fun s ins => ∃ prev, ins = softIrqInsert p data s prev)
      data.hostScore.info.softIrq
      ((writeToMysql p l data).2.filter fun i => i.table = .serverSoftirqDetail) ∧
    List.Forall₂ (fun m ins => ∃ prev, ins = mysqlInsert p data m prev)
      data.hostScore.info.mysqlInfo
      ((writeToMysql p l data).2.filter fun i => i.table = .serverMysqlDetail) ∧
    List.Forall₂ (fun r ins => ∃ prev, ins = redisInsert p data r prev)
      data.hostScore.info.redisInfo
      ((writeToMysql p l data).2.filter fun i => i.table = .serverRedisDetail) := by
  have hfilter := filter_writeToMysql p l data (by simp [htenant, hteam, hcluster])
  rw [hfilter, hfilter, hfilter]
  exact ⟨forall₂_writeDetails .., forall₂_writeDetails .., forall₂_writeDetails ..⟩

end MysqlWriter

/-! ### From the statements to the rows that are handed out -/

/-- The names that every row carries fit into their columns. -/
structure HostMonitoringData.Fits (data : HostMonitoringData) : Prop where
  tenantId : data.scope.tenantId.length ≤ 128
  teamId : data.scope.teamId.length ≤ 128
  clusterId : data.scope.clusterId.length ≤ 128
  hostName : data.hostName.length ≤ 255

/-- A time range with the time of a record. -/
def Covers (d : Dialect) (p : Platform) (range : TimeRange) (data : HostMonitoringData) : Prop :=
  (d.le (.text (formatTimePoint p range.startTime)) (MysqlWriter.timestampValue p data) &&
    d.le (MysqlWriter.timestampValue p data) (.text (formatTimePoint p range.endTime))) = true

instance (d : Dialect) (p : Platform) (range : TimeRange) (data : HostMonitoringData) :
    Decidable (Covers d p range data) :=
  inferInstanceAs (Decidable (_ = true))

/-- The columns by which a row is asked for. -/
def askedColumns : List String :=
  ["tenant_id", "team_id", "cluster_id", "server_name", "timestamp"]

/-- Their values in the rows of a record. -/
theorem get_askedColumns (p : Platform) (data : HostMonitoringData) (table : Table)
    {columns : List String} {values : List Value} (hlength : columns.length = values.length)
    (htime : "timestamp" ∉ columns) :
    askedColumns.map (MysqlWriter.detailRow p data table columns values).row.get =
      [.text data.scope.tenantId, .text data.scope.teamId, .text data.scope.clusterId,
        .text data.hostName, MysqlWriter.timestampValue p data] := by
  have hnone : (columns.zip values).lookup "timestamp" = none := by
    rw [List.lookup_eq_none_iff]
    intro cell hcell
    have hne : "timestamp" ≠ cell.1 := fun h => htime (h ▸ (List.of_mem_zip hcell).1)
    exact bne_iff_ne.mpr hne
  have hzip : (columns ++ ["timestamp"]).zip
      (values ++ [MysqlWriter.timestampValue p data]) =
        columns.zip values ++ [("timestamp", MysqlWriter.timestampValue p data)] := by
    rw [List.zip_append hlength]
    rfl
  simp [askedColumns, MysqlWriter.detailRow, MysqlWriter.insertInto, Row.get, hzip,
    MysqlWriter.scopeColumns, MysqlWriter.scopeValues, List.lookup_cons, List.lookup_append, hnone]

/-- **The row of a record is asked for** by the queries for its scope, its host and a range
with its time. -/
theorem Stores.asked {d : Dialect} {p : Platform} {data : HostMonitoringData} {table : Table}
    {columns : List String} {values : List Value} {row : Row} {cluster : String}
    {range : TimeRange}
    (h : Stores table (MysqlWriter.detailRow p data table columns values).row row)
    (hfits : data.Fits) (hlength : columns.length = values.length)
    (hcolumn : "timestamp" ∉ columns)
    (htypes : askedColumns.map (fun c => table.columns.lookup c) =
      [some (varchar 128), some (varchar 128), some (varchar 128), some (varchar 255),
        some datetime])
    (hcluster : cluster = "" ∨ cluster = data.scope.clusterId)
    (hcovers : Covers d p range data) :
    InScope ⟨data.scope.tenantId, data.scope.teamId, cluster⟩ row ∧
      row.get "server_name" = .text data.hostName ∧
      InRange d (formatTimePoint p range.startTime) (formatTimePoint p range.endTime) row := by
  have hget := get_askedColumns p data table hlength hcolumn
  simp only [askedColumns, List.map_cons, List.map_nil, List.cons.injEq, and_true]
    at htypes hget
  obtain ⟨ttenant, tteam, tcluster, tname, ttime⟩ := htypes
  obtain ⟨gtenant, gteam, gcluster, gname, gtime⟩ := hget
  have htenant := h _ _ ((Table.stored_eq ttenant gtenant).trans (stored_varchar hfits.tenantId))
  have hteam := h _ _ ((Table.stored_eq tteam gteam).trans (stored_varchar hfits.teamId))
  have hclusterId :=
    h _ _ ((Table.stored_eq tcluster gcluster).trans (stored_varchar hfits.clusterId))
  have hname := h _ _ ((Table.stored_eq tname gname).trans (stored_varchar hfits.hostName))
  have htime := h _ _ ((Table.stored_eq ttime gtime).trans (stored_timestampValue p data))
  refine ⟨⟨htenant, hteam, fun hne => ?_⟩, hname, ?_⟩
  · obtain rfl := hcluster.resolve_left hne
    exact hclusterId
  · rw [InRange, htime]
    exact hcovers

/-- **What is handed out once the rows of some entries are in a table.** If every one of these
rows is asked for, and what is read from it is right for its entry, then the first page of a
query, large enough for all that is asked for, holds the rows of before and exactly one row
for each entry. -/
theorem Inserted.handed_out {d : ExactDialect} {before after : Tables} {m : QueryManager}
    {α τ : Type} {entries : List α} {insert : α → τ → Insert} {inserts : List Insert}
    {table : Table} {columns : List String} {countContext context : String}
    {scope : QueryScope} {serverName : String} {range : TimeRange} {size : ℕ}
    {Reads : α → List String → Prop} (h : Inserted inserts table before after)
    (hentries : List.Forall₂ (fun e ins => ∃ prev, ins = insert e prev) entries
      (inserts.filter fun i => i.table = table))
    (hrows : ∀ e ∈ entries, ∀ prev row, Stores table (insert e prev).row row →
      (InScope scope row ∧ row.get "server_name" = .text serverName ∧
        InRange d.toDialect (formatTimePoint m.platform range.startTime)
          (formatTimePoint m.platform range.endTime) row) ∧
      Reads e (Row.texts d.toDialect columns row))
    (hlease : m.lease = .acquired) (hscope : scope.Admitted)
    (hrange : validateTimeRange range = true) (hsize : 0 < size)
    (hall : (m.wanted d.toDialect after.toDatabase table scope serverName range).length ≤ size)
    (e : Execution d.toDialect after.rows
      (m.pagedRecords table columns countContext context scope serverName range 1 size)) :
    ∃ (n : ℤ) (texts new : Rows), e.result = .ok (.page n texts) ∧
      texts.Perm ((m.wanted d.toDialect before.toDatabase table scope serverName range).map
        (Row.texts d.toDialect columns) ++ new) ∧
      List.Forall₂ Reads entries new := by
  obtain ⟨rows, hafter, hstores⟩ := h
  -- every row belongs to an entry
  have hread : List.Forall₂ (fun row e => (InScope scope row ∧
      row.get "server_name" = .text serverName ∧
        InRange d.toDialect (formatTimePoint m.platform range.startTime)
          (formatTimePoint m.platform range.endTime) row) ∧
      Reads e (Row.texts d.toDialect columns row)) rows entries := by
    clear hafter hall e
    generalize inserts.filter (fun i => i.table = table) = written at hentries hstores
    induction hentries generalizing rows with
    | nil =>
      cases hstores
      exact .nil
    | cons hfirst hrest ih =>
      obtain ⟨prev, rfl⟩ := hfirst
      cases hstores with
      | cons hstored hstores =>
        exact .cons (hrows _ List.mem_cons_self prev _ hstored)
          (ih (fun e he => hrows e (List.mem_cons_of_mem _ he)) _ hstores)
  obtain ⟨hasked, hreads⟩ := (List.forall₂_and_left _ _).mp hread
  have hwanted : (m.wanted d.toDialect after.toDatabase table scope serverName range).Perm
      (m.wanted d.toDialect before.toDatabase table scope serverName range ++ rows) := by
    refine (hafter.filter _).trans ?_
    rw [List.filter_append]
    exact .append_left _ (.of_eq (List.filter_eq_self.mpr fun row hrow =>
      decide_eq_true (hasked row hrow)))
  obtain ⟨hperm, hresult⟩ := PagedQuery.execution_first_page hlease hscope hrange hsize hall e
  refine ⟨_, _, rows.map (Row.texts d.toDialect columns), hresult, ?_, ?_⟩
  · rw [← List.map_append]
    exact (hperm.trans hwanted).map _
  · exact List.forall₂_map_right_iff.mpr hreads.flip

end MonitorSystem
