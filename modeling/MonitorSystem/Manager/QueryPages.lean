import MonitorSystem.Manager.QueryExecution

/-!
# Whether the pages of a query add up

Seven queries hand out a table page by page, each page with a statement of its own that
sorts by the timestamp alone (`manager/src/QueryManager.cpp`). The rows of one second are
tied, and the rows of one sample always are: one for each interface, disk, processor or
instance. What the pages come to together is a matter of the arrangements that the database
chooses for each of them.

`PagedQuery.partitions_iff` says when the pages hold every row exactly once: if and only if
no second has the end of a page between its rows.
-/

namespace MonitorSystem

open Sql

/-- The queries that hand out a table page by page. -/
inductive PagedQuery where
  | performance
  | netDetail
  | diskDetail
  | memDetail
  | softIrqDetail
  | mysqlDetail
  | redisDetail
  deriving DecidableEq, Repr

namespace PagedQuery

/-- The table of a query. -/
def table : PagedQuery → Table
  | .performance => .serverPerformance
  | .netDetail => .serverNetDetail
  | .diskDetail => .serverDiskDetail
  | .memDetail => .serverMemDetail
  | .softIrqDetail => .serverSoftirqDetail
  | .mysqlDetail => .serverMysqlDetail
  | .redisDetail => .serverRedisDetail

/-- The operation of a query. -/
def run (m : QueryManager) : PagedQuery → QueryScope → String → TimeRange → ℤ → ℤ → Query Fetched
  | .performance => m.queryPerformanceRecords
  | .netDetail => m.queryNetDetailRecords
  | .diskDetail => m.queryDiskDetailRecords
  | .memDetail => m.queryMemDetailRecords
  | .softIrqDetail => m.querySoftIrqDetailRecords
  | .mysqlDetail => m.queryMysqlDetailRecords
  | .redisDetail => m.queryRedisDetailRecords

/-- All of them count and list alike. -/
theorem exists_run_eq (m : QueryManager) (q : PagedQuery) :
    ∃ columns countContext context,
      q.run m = m.pagedRecords q.table columns countContext context := by
  cases q <;> exact ⟨_, _, _, rfl⟩

end PagedQuery

/-- The total count that a request ends with. -/
def Execution.totalCount {d : Dialect} {db : Table → List Row} {q : Query Fetched}
    (e : Execution d db q) : ℤ :=
  match e.result with
  | .ok (.page n _) => n
  | _ => 0

/-- The executions of all the pages of a query, each with answers of its own. -/
abbrev PageExecutions (d : Dialect) (db : Table → List Row) (m : QueryManager) (q : PagedQuery)
    (scope : QueryScope) (serverName : String) (range : TimeRange) (p : ℕ) : Type :=
  ∀ k : ℕ, Execution d db (q.run m scope serverName range (k + 1) p)

/-- **The pages one after the other**, from the first one to the last one that the total count
announces. -/
def PageExecutions.concatenated {d : Dialect} {db : Table → List Row} {m : QueryManager}
    {q : PagedQuery} {scope : QueryScope} {serverName : String} {range : TimeRange} {p : ℕ}
    (e : PageExecutions d db m q scope serverName range p) : List Row :=
  (List.range (Paging.pages p (e 0).totalCount.toNat)).flatMap fun k => (e k).rows

namespace PagedQuery

section Pages

variable {d : ExactDialect} {db : Tables} {m : QueryManager} {q : PagedQuery} {scope : QueryScope}
  {serverName : String} {range : TimeRange} {p : ℕ}

theorem stamped_wanted (db : Tables) (m : QueryManager) (table : Table) (scope : QueryScope)
    (serverName : String) (range : TimeRange) :
    ∀ r ∈ m.wanted d.toDialect db.toDatabase table scope serverName range,
      ∃ s, r.get "timestamp" = .text s :=
  fun r hr => db.stamped table r (List.mem_of_mem_filter hr)

theorem bounded_wanted (db : Tables) (m : QueryManager) (table : Table) (scope : QueryScope)
    (serverName : String) (range : TimeRange) :
    (m.wanted d.toDialect db.toDatabase table scope serverName range).length < 2 ^ 31 :=
  (List.length_filter_le _ _).trans_lt (db.bounded table)

/-- What one page comes to: the number of all the rows, and a page of a listing of them. -/
theorem execution_page {table : Table} {columns : List String} {countContext context : String}
    (hlease : m.lease = .acquired) (hscope : scope.Admitted)
    (hrange : validateTimeRange range = true) (hp : 0 < p) {k : ℕ}
    (e : Execution d.toDialect db.rows
      (m.pagedRecords table columns countContext context scope serverName range (k + 1) p)) :
    (∃ l, Paging.Listing (d.later "timestamp")
        (m.wanted d.toDialect db.toDatabase table scope serverName range) l ∧
      (k * p < (m.wanted d.toDialect db.toDatabase table scope serverName range).length →
        e.rows = Paging.page p k l)) ∧
      e.result = .ok (.page (m.wanted d.toDialect db.toDatabase table scope serverName range).length
        (e.rows.map (Row.texts d.toDialect columns))) := by
  obtain ⟨l, hl, hrows, hresult⟩ := QueryManager.execution_pagedRecords hlease hscope hrange e
  refine ⟨⟨l, (d.arranged_iff (stamped_wanted db m table scope serverName range)).mp hl,
    fun hk => ?_⟩, hresult⟩
  rw [hrows, cut_pageParams d.toDialect (bounded_wanted db m table scope serverName range) hp hk]

/-- The first page holds all the rows, if it is large enough. -/
theorem execution_first_page {table : Table} {columns : List String}
    {countContext context : String} {size : ℕ} (hlease : m.lease = .acquired)
    (hscope : scope.Admitted) (hrange : validateTimeRange range = true) (hsize : 0 < size)
    (hall : (m.wanted d.toDialect db.toDatabase table scope serverName range).length ≤ size)
    (e : Execution d.toDialect db.rows
      (m.pagedRecords table columns countContext context scope serverName range 1 size)) :
    e.rows.Perm (m.wanted d.toDialect db.toDatabase table scope serverName range) ∧
      e.result = .ok (.page
        (m.wanted d.toDialect db.toDatabase table scope serverName range).length
        (e.rows.map (Row.texts d.toDialect columns))) := by
  obtain ⟨l, hl, hrows, hresult⟩ := QueryManager.execution_pagedRecords hlease hscope hrange e
  refine ⟨?_, hresult⟩
  rcases Nat.eq_zero_or_pos (m.wanted d.toDialect db.toDatabase table scope serverName
    range).length with hzero | hsome
  · -- there is nothing to cut
    obtain rfl : l = [] := List.length_eq_zero_iff.mp (hl.perm.length_eq.trans hzero)
    rw [hrows, List.length_eq_zero_iff.mp hzero, cut, if_pos rfl, List.drop_nil, List.take_nil]
  · have hpage : e.rows = Paging.page size 0 l := hrows.trans
      (cut_pageParams d.toDialect (k := 0) (bounded_wanted db m table scope serverName range) hsize
        (by rwa [Nat.zero_mul]) l)
    rw [hpage, Paging.page, Nat.zero_mul, List.drop_zero,
      List.take_of_length_le (by rwa [hl.perm.length_eq])]
    exact hl.perm

/-- Every listing is that of an execution. -/
theorem exists_execution_page {table : Table} {columns : List String}
    {countContext context : String} (hlease : m.lease = .acquired) (hscope : scope.Admitted)
    (hrange : validateTimeRange range = true) (hp : 0 < p) (k : ℕ) {l : List Row}
    (hl : Paging.Listing (d.later "timestamp")
      (m.wanted d.toDialect db.toDatabase table scope serverName range) l) :
    ∃ e : Execution d.toDialect db.rows
        (m.pagedRecords table columns countContext context scope serverName range (k + 1) p),
      k * p < (m.wanted d.toDialect db.toDatabase table scope serverName range).length →
        e.rows = Paging.page p k l := by
  have harranged := (d.arranged_iff (stamped_wanted db m table scope serverName range)).mpr hl
  obtain ⟨e, he⟩ : ∃ e : Execution d.toDialect db.rows
      (m.pagedRecords table columns countContext context scope serverName range (k + 1) p), _ :=
    QueryManager.exists_execution_pagedRecords hlease hscope hrange harranged
  refine ⟨e, fun hk => ?_⟩
  rw [he, cut_pageParams d.toDialect (bounded_wanted db m table scope serverName range) hp hk]

/-- There is a first page. -/
theorem nonempty_execution_first_page (d : ExactDialect) (db : Tables) {table : Table}
    {columns : List String} {countContext context : String} (hlease : m.lease = .acquired)
    (hscope : scope.Admitted) (hrange : validateTimeRange range = true) (hp : 0 < p) :
    Nonempty (Execution d.toDialect db.rows
      (m.pagedRecords table columns countContext context scope serverName range 1 p)) := by
  have hl := Paging.listing_mergeSort (d.weakOrder_later "timestamp")
    (m.wanted d.toDialect db.toDatabase table scope serverName range)
  obtain ⟨e, -⟩ := exists_execution_page hlease hscope hrange hp 0 hl
  exact ⟨e⟩

/-- What one page of a query comes to. -/
theorem execution_run (hlease : m.lease = .acquired) (hscope : scope.Admitted)
    (hrange : validateTimeRange range = true) (hp : 0 < p) {k : ℕ}
    (e : Execution d.toDialect db.rows (q.run m scope serverName range (k + 1) p)) :
    (∃ l, Paging.Listing (d.later "timestamp")
        (m.wanted d.toDialect db.toDatabase q.table scope serverName range) l ∧
      (k * p < (m.wanted d.toDialect db.toDatabase q.table scope serverName range).length →
        e.rows = Paging.page p k l)) ∧
      ∃ columns, e.result = .ok (.page
        (m.wanted d.toDialect db.toDatabase q.table scope serverName range).length
        (e.rows.map (Row.texts d.toDialect columns))) := by
  obtain ⟨columns, countContext, context, hrun⟩ := exists_run_eq m q
  revert e
  rw [hrun]
  intro e
  obtain ⟨hrows, hresult⟩ := execution_page hlease hscope hrange hp e
  exact ⟨hrows, columns, hresult⟩

theorem exists_execution_run (hlease : m.lease = .acquired) (hscope : scope.Admitted)
    (hrange : validateTimeRange range = true) (hp : 0 < p) (k : ℕ) {l : List Row}
    (hl : Paging.Listing (d.later "timestamp")
      (m.wanted d.toDialect db.toDatabase q.table scope serverName range) l) :
    ∃ e : Execution d.toDialect db.rows (q.run m scope serverName range (k + 1) p),
      k * p < (m.wanted d.toDialect db.toDatabase q.table scope serverName range).length →
        e.rows = Paging.page p k l := by
  obtain ⟨columns, countContext, context, hrun⟩ := exists_run_eq m q
  rw [hrun]
  exact exists_execution_page hlease hscope hrange hp k hl

theorem totalCount_run (hlease : m.lease = .acquired) (hscope : scope.Admitted)
    (hrange : validateTimeRange range = true) (hp : 0 < p) {k : ℕ}
    (e : Execution d.toDialect db.rows (q.run m scope serverName range (k + 1) p)) :
    e.totalCount = (m.wanted d.toDialect db.toDatabase q.table scope serverName range).length := by
  obtain ⟨-, columns, hresult⟩ := execution_run hlease hscope hrange hp e
  rw [Execution.totalCount, hresult]

/-- The pages of listings, one after the other. -/
theorem concatenated_eq (hlease : m.lease = .acquired) (hscope : scope.Admitted)
    (hrange : validateTimeRange range = true) (hp : 0 < p)
    {e : PageExecutions d.toDialect db.rows m q scope serverName range p} {l : ℕ → List Row}
    (hrows : ∀ k, k * p < (m.wanted d.toDialect db.toDatabase q.table scope serverName
      range).length → (e k).rows = Paging.page p k (l k)) :
    e.concatenated = (List.range (Paging.pages p
      (m.wanted d.toDialect db.toDatabase q.table scope serverName range).length)).flatMap
        fun k => Paging.page p k (l k) := by
  rw [PageExecutions.concatenated, totalCount_run hlease hscope hrange hp (e 0), Int.toNat_natCast]
  refine List.flatMap_congr fun k hk => hrows k ?_
  exact (Paging.lt_pages_iff hp k _).mp (List.mem_range.mp hk)

end Pages

/-- **When the pages of a query add up.** For all contents of the tables, every filter, page
size and query: each page holds the texts of the rows that are handed out and the number of
all the rows that match; and for whatever answers to the single pages, the pages together
hold every matching row exactly once, if and only if no group of matching rows with one
timestamp has the end of a page between its rows. -/
theorem partitions_iff (d : ExactDialect) (db : Tables) (m : QueryManager) (q : PagedQuery)
    (scope : QueryScope) (serverName : String) (range : TimeRange) (p : ℕ)
    (hlease : m.lease = .acquired) (hscope : scope.Admitted)
    (hrange : validateTimeRange range = true) (hp : 0 < p) :
    (∀ (e : PageExecutions d.toDialect db.rows m q scope serverName range p) (k : ℕ),
      ∃ columns, (e k).result = .ok (.page
        (m.wanted d.toDialect db.toDatabase q.table scope serverName range).length
        ((e k).rows.map (Row.texts d.toDialect columns)))) ∧
    ((∀ e : PageExecutions d.toDialect db.rows m q scope serverName range p,
      e.concatenated.Perm (m.wanted d.toDialect db.toDatabase q.table scope serverName range)) ↔
      Paging.Aligned (d.later "timestamp") p
        (m.wanted d.toDialect db.toDatabase q.table scope serverName range)) := by
  refine ⟨fun e k => (execution_run hlease hscope hrange hp (e k)).2, ?_⟩
  have hnodup : (m.wanted d.toDialect db.toDatabase q.table scope serverName range).Nodup :=
    (db.nodup q.table).filter _
  rw [← Paging.partition_iff (d.weakOrder_later "timestamp") hnodup hp]
  constructor
  · intro h l hl
    choose e he using fun k => exists_execution_run hlease hscope hrange hp k (hl k)
    rw [← concatenated_eq hlease hscope hrange hp he]
    exact h e
  · intro h e
    choose l hl hrows using fun k => (execution_run hlease hscope hrange hp (e k)).1
    rw [concatenated_eq hlease hscope hrange hp hrows]
    exact h l hl

/-- An interface of a sample. -/
def interfaceRow (id : ℤ) (name : String) : Row :=
  [("id", .int id), ("tenant_id", .text "acme"), ("team_id", .text "ops"),
    ("cluster_id", .text "prod"), ("server_name", .text "web"), ("net_name", .text name),
    ("timestamp", .text "2024-01-01 00:00:00")]

/-- A sample with two interfaces. -/
def twoInterfaces : Tables :=
  .single .serverNetDetail [interfaceRow 1 "eth0", interfaceRow 2 "eth1"] (by decide) (by decide)
    (by decide)

/-- A manager with a connection, at the time of the sample. -/
def newYearManager : QueryManager :=
  ⟨{ Platform.exact with localTime := fun _ => "2024-01-01 00:00:00" }, .acquired⟩

/-- That time, in nanoseconds. -/
def newYear : TimeRange := ⟨1704067200000000000, 1704067200000000000⟩

theorem wanted_twoInterfaces :
    newYearManager.wanted ExactDialect.reference.toDialect twoInterfaces.toDatabase
      .serverNetDetail ⟨"acme", "ops", "prod"⟩ "web" newYear =
        [interfaceRow 1 "eth0", interfaceRow 2 "eth1"] := by
  decide

/-- **Pages of one row each hand out one interface twice.** Both pages may begin with `eth0`,
and `eth1` is on neither of them. -/
theorem pages_repeat_interface :
    ¬ ∀ e : PageExecutions ExactDialect.reference.toDialect twoInterfaces.rows newYearManager
        .netDetail ⟨"acme", "ops", "prod"⟩ "web" newYear 1,
      e.concatenated.Perm (newYearManager.wanted ExactDialect.reference.toDialect
        twoInterfaces.toDatabase .serverNetDetail ⟨"acme", "ops", "prod"⟩ "web" newYear) := by
  intro h
  have hl : ∀ k : ℕ, Paging.Listing (ExactDialect.reference.later "timestamp")
      (newYearManager.wanted ExactDialect.reference.toDialect twoInterfaces.toDatabase
        PagedQuery.netDetail.table ⟨"acme", "ops", "prod"⟩ "web" newYear)
      (if k = 0 then [interfaceRow 1 "eth0", interfaceRow 2 "eth1"]
        else [interfaceRow 2 "eth1", interfaceRow 1 "eth0"]) := by
    intro k
    split <;> exact ⟨by decide, by decide⟩
  choose e he using fun k => exists_execution_run (p := 1) rfl (by decide) (by decide) (by decide) k
    (hl k)
  have hperm := h e
  rw [concatenated_eq rfl (by decide) (by decide) (by decide) he] at hperm
  revert hperm
  decide

/-- On one page the two are listed once each. -/
theorem partitions_iff_interfaces :
    Paging.Aligned (ExactDialect.reference.later "timestamp") 2
        [interfaceRow 1 "eth0", interfaceRow 2 "eth1"] ∧
      ∀ e : PageExecutions ExactDialect.reference.toDialect twoInterfaces.rows newYearManager
          .netDetail ⟨"acme", "ops", "prod"⟩ "web" newYear 2,
        e.concatenated.Perm [interfaceRow 1 "eth0", interfaceRow 2 "eth1"] := by
  have haligned : Paging.Aligned (ExactDialect.reference.later "timestamp") 2
      [interfaceRow 1 "eth0", interfaceRow 2 "eth1"] := by
    have hcounts : ∀ x ∈ [interfaceRow 1 "eth0", interfaceRow 2 "eth1"],
        Paging.ahead (ExactDialect.reference.later "timestamp")
            [interfaceRow 1 "eth0", interfaceRow 2 "eth1"] x = 0 ∧
          Paging.tied (ExactDialect.reference.later "timestamp")
            [interfaceRow 1 "eth0", interfaceRow 2 "eth1"] x = 2 := by decide
    intro x hx k ⟨hlow, hhigh⟩
    obtain ⟨hahead, htied⟩ := hcounts x hx
    omega
  refine ⟨haligned, ?_⟩
  have h := (partitions_iff ExactDialect.reference twoInterfaces newYearManager .netDetail
    ⟨"acme", "ops", "prod"⟩ "web" newYear 2 rfl (by decide) (by decide) (by decide)).2
  rw [show PagedQuery.netDetail.table = .serverNetDetail from rfl, wanted_twoInterfaces] at h
  exact h.mpr haligned

end PagedQuery

end MonitorSystem
