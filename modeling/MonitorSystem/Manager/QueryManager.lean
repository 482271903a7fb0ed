import MonitorSystem.Library.Oracle
import MonitorSystem.Manager.QueryStatements

/-!
# The query manager and its service

The operations of `QueryManager` (`manager/src/QueryManager.cpp`) and the calls of
`QueryServiceImpl` that lead to them (`manager/src/rpc/QueryService.cpp`). An operation is a
computation that asks the database: it takes a connection, checks its scope and its time
range, and executes its statements one after the other, as long as none of them fails
(`Oracle.Session`). What it ends with here is what it has fetched; the records of the
response are made of these rows, one by one.

The build is the one with `ENABLE_MYSQL`, and the answer of `QueryLatestScore` is the one
that does not come from the cache.

`QueryService.asks_call` says what all eleven calls have in common: every statement they
execute is confined to the scope of the request, and its parameters are the values of the
request, each in its place.
-/

namespace MonitorSystem

open Sql Oracle

/-! ### Executing a statement -/

/-- The rows of an answer, as texts. -/
abbrev Rows := List (List String)

/-- Where the execution of a statement can fail. -/
inductive Stage where
  | initStatement
  | prepare
  | bindParams
  | execute
  | bindResult
  | fetch
  deriving DecidableEq, Repr

/-- The words for it in the error message. -/
def Stage.text : Stage → String
  | .initStatement => " init statement failed: "
  | .prepare => " prepare failed: "
  | .bindParams => " bind params failed: "
  | .execute => " execute failed: "
  | .bindResult => " bind result failed: "
  | .fetch => " fetch failed: "

/-- A failure, with the text of the server. -/
structure Failure where
  stage : Stage
  detail : String
  deriving DecidableEq, Repr

/-- What a statement is answered with. -/
abbrev Reply := Except Failure Rows

/-- A computation of the query manager. -/
abbrev Query (α : Type) := Session Prepared Reply String α

/-- **`executePreparedRows`.** -/
def executePreparedRows (p : Prepared) : Query Rows := do
  match ← Session.ask p with
  | .ok rows => pure rows
  | .error f => Session.fail ("QueryManager: " ++ p.context ++ f.stage.text ++ f.detail)

/-- The value of a string of digits. -/
def digitsValue (digits : List Char) : ℤ :=
  digits.foldl (fun n c => 10 * n + (c.toNat - '0'.toNat : ℕ)) 0

/-- `atoi`, of a number that fits into an `int`. -/
def atoi (text : String) : ℤ :=
  match text.toList.dropWhile (·.isWhitespace) with
  | '-' :: rest => -digitsValue (rest.takeWhile (·.isDigit))
  | '+' :: rest => digitsValue (rest.takeWhile (·.isDigit))
  | rest => digitsValue (rest.takeWhile (·.isDigit))

/-- **`executePreparedCount`**: the number in the first field, zero if there is none. -/
def executePreparedCount (p : Prepared) : Query ℤ := do
  match ← executePreparedRows p with
  | (text :: _) :: _ => pure (atoi text)
  | _ => pure 0

/-! ### Times, pages and connections -/

/-- `system_clock::from_time_t`: nanoseconds, in 64 bits. -/
def fromTimeT (seconds : ℤ) : ℤ := (seconds * 1000000000).bmod (2 ^ 64)

/-- `TimeRange`, in nanoseconds. -/
structure TimeRange where
  startTime : ℤ
  endTime : ℤ
  deriving DecidableEq, Repr

/-- `validateTimeRange`. -/
def validateTimeRange (range : TimeRange) : Bool := range.startTime ≤ range.endTime

/-- `formatTimePoint`: the local time, in whole seconds. -/
def formatTimePoint (p : Platform) (tp : ℤ) : String := p.localTime (tp.tdiv 1000000000)

/-- The page that is meant. -/
def normalPage (page : ℤ) : ℤ := if page < 1 then 1 else page

/-- The page size that is meant. -/
def normalPageSize (pageSize : ℤ) : ℤ := if pageSize < 1 then 100 else pageSize

@[simp] theorem normalPage_normalPage (page : ℤ) :
    normalPage (normalPage page) = normalPage page := by
  by_cases h : page < 1 <;> simp [normalPage, h]

@[simp] theorem normalPageSize_normalPageSize (pageSize : ℤ) :
    normalPageSize (normalPageSize pageSize) = normalPageSize pageSize := by
  by_cases h : pageSize < 1 <;> simp [normalPageSize, h]

/-- The `int` product that is bound to `OFFSET`, in 32 bits. -/
def pageOffset (page pageSize : ℤ) : ℤ := ((page - 1) * pageSize).bmod (2 ^ 32)

/-- The outcomes of `acquireConnection`. -/
inductive Lease where
  | notInitialized
  | timedOut
  | acquired
  deriving DecidableEq, Repr

/-- `acquireConnection`. -/
def acquireConnection : Lease → Except String Unit
  | .notInitialized => .error "QueryManager is not initialized"
  | .timedOut => .error "QueryManager query connection acquire timed out"
  | .acquired => .ok ()

/-- What an operation has fetched. -/
inductive Fetched where
  /-- The total count and a page. -/
  | page (totalCount : ℤ) (rows : Rows)
  | rows (rows : Rows)
  /-- The three scans for anomalies, and the page of the anomalies that is asked for. -/
  | scans (rows mysqlRows redisRows : Rows) (page pageSize : ℤ)
  deriving DecidableEq, Repr

/-! ### Operations -/

/-- The query manager: its machine, and what asking for a connection comes to. -/
structure QueryManager where
  platform : Platform
  lease : Lease

namespace QueryManager

variable (m : QueryManager)

/-- The checks that the operations begin with. -/
def begin (scope : QueryScope) : Query Unit := do
  Session.lift (acquireConnection m.lease)
  Session.lift (validateQueryScope scope)

/-- The check of the time range. -/
def checkRange (range : TimeRange) : Query Unit :=
  if validateTimeRange range then pure ()
  else Session.fail "Invalid time range: start_time > end_time"

/-- The count and the page of a table, for one server and a time range. -/
def pagedRecords (table : Table) (columns : List String) (countContext context : String)
    (scope : QueryScope) (serverName : String) (range : TimeRange) (page pageSize : ℤ) :
    Query Fetched := do
  m.begin scope
  checkRange range
  let startTime := formatTimePoint m.platform range.startTime
  let endTime := formatTimePoint m.platform range.endTime
  let totalCount ← executePreparedCount
    (countStmt table countContext scope serverName startTime endTime)
  let rows ← executePreparedRows
    (pageStmt table columns context scope serverName startTime endTime (normalPageSize pageSize)
      (pageOffset (normalPage page) (normalPageSize pageSize)))
  pure (.page totalCount rows)

/-- `queryPerformanceRecords`. -/
def queryPerformanceRecords : QueryScope → String → TimeRange → ℤ → ℤ → Query Fetched :=
  m.pagedRecords .serverPerformance
    ["server_name", "timestamp", "cpu_percent", "usr_percent", "system_percent", "nice_percent",
      "idle_percent", "io_wait_percent", "irq_percent", "soft_irq_percent", "load_avg_1",
      "load_avg_3", "load_avg_15", "mem_used_percent", "total", "free", "avail",
      "disk_util_percent", "send_rate", "rcv_rate", "score", "cpu_percent_rate",
      "mem_used_percent_rate", "disk_util_percent_rate", "load_avg_1_rate", "send_rate_rate",
      "rcv_rate_rate"]
    "performance count" "performance query"

/-- `queryNetDetailRecords`. -/
def queryNetDetailRecords : QueryScope → String → TimeRange → ℤ → ℤ → Query Fetched :=
  m.pagedRecords .serverNetDetail
    ["server_name", "net_name", "timestamp", "err_in", "err_out", "drop_in", "drop_out",
      "rcv_bytes_rate", "snd_bytes_rate", "rcv_packets_rate", "snd_packets_rate"]
    "net detail count" "net detail query"

/-- `queryDiskDetailRecords`. -/
def queryDiskDetailRecords : QueryScope → String → TimeRange → ℤ → ℤ → Query Fetched :=
  m.pagedRecords .serverDiskDetail
    ["server_name", "disk_name", "timestamp", "read_bytes_per_sec", "write_bytes_per_sec",
      "read_iops", "write_iops", "avg_read_latency_ms", "avg_write_latency_ms", "util_percent"]
    "disk detail count" "disk detail query"

/-- `queryMemDetailRecords`. -/
def queryMemDetailRecords : QueryScope → String → TimeRange → ℤ → ℤ → Query Fetched :=
  m.pagedRecords .serverMemDetail
    ["server_name", "timestamp", "total", "free", "avail", "buffers", "cached", "active",
      "inactive", "dirty"]
    "mem detail count" "mem detail query"

/-- `querySoftIrqDetailRecords`. -/
def querySoftIrqDetailRecords : QueryScope → String → TimeRange → ℤ → ℤ → Query Fetched :=
  m.pagedRecords .serverSoftirqDetail
    ["server_name", "cpu_name", "timestamp", "hi", "timer", "net_tx", "net_rx", "block", "sched"]
    "softirq detail count" "softirq detail query"

/-- `queryMysqlDetailRecords`. -/
def queryMysqlDetailRecords : QueryScope → String → TimeRange → ℤ → ℤ → Query Fetched :=
  m.pagedRecords .serverMysqlDetail
    ["server_name", "instance", "timestamp", "mysql_host", "mysql_port", "up", "version", "role",
      "max_connections", "threads_connected", "threads_running", "aborted_connects", "questions",
      "com_select", "com_insert", "com_update", "com_delete", "com_commit", "com_rollback",
      "slow_queries", "innodb_buffer_pool_read_requests", "innodb_buffer_pool_reads",
      "innodb_buffer_pool_hit_percent", "innodb_row_lock_waits", "innodb_row_lock_time_avg_ms",
      "replication_configured", "replication_running", "replication_lag_seconds",
      "connection_used_percent", "qps", "tps", "slow_queries_rate", "innodb_row_lock_waits_rate"]
    "mysql detail count" "mysql detail query"

/-- `queryRedisDetailRecords`. -/
def queryRedisDetailRecords : QueryScope → String → TimeRange → ℤ → ℤ → Query Fetched :=
  m.pagedRecords .serverRedisDetail
    ["server_name", "instance", "timestamp", "redis_host", "redis_port", "up", "version", "role",
      "uptime_in_seconds", "connected_clients", "blocked_clients", "maxclients",
      "connection_used_percent", "used_memory", "maxmemory", "mem_fragmentation_ratio",
      "memory_used_percent", "total_commands_processed", "instantaneous_ops_per_sec",
      "commands_per_sec", "keyspace_hits", "keyspace_misses", "keyspace_hit_percent",
      "expired_keys", "evicted_keys", "rejected_connections", "total_error_replies",
      "total_net_input_bytes", "total_net_output_bytes", "net_input_bytes_per_sec",
      "net_output_bytes_per_sec", "replication_configured", "master_link_up",
      "connected_slaves", "master_last_io_seconds_ago", "slowlog_len", "slowlog_growth"]
    "redis detail count" "redis detail query"

/-- `queryTrend`. -/
def queryTrend (scope : QueryScope) (serverName : String) (range : TimeRange)
    (intervalSeconds : ℤ) : Query Fetched := do
  m.begin scope
  checkRange range
  let rows ← executePreparedRows
    (trendStmt scope serverName (formatTimePoint m.platform range.startTime)
      (formatTimePoint m.platform range.endTime) intervalSeconds)
  pure (.rows rows)

/-- `queryAnomalyRecords`, up to the scans. -/
def queryAnomalyRecords (scope : QueryScope) (serverName : String) (range : TimeRange)
    (threshold : AnomalyThreshold) (page pageSize : ℤ) : Query Fetched := do
  m.begin scope
  checkRange range
  let startTime := formatTimePoint m.platform range.startTime
  let endTime := formatTimePoint m.platform range.endTime
  let rows ← executePreparedRows (anomalyStmt scope serverName startTime endTime threshold)
  let mysqlRows ← executePreparedRows
    (mysqlAnomalyStmt scope serverName startTime endTime threshold)
  let redisRows ← executePreparedRows
    (redisAnomalyStmt scope serverName startTime endTime threshold)
  pure (.scans rows mysqlRows redisRows (normalPage page) (normalPageSize pageSize))

/-- `queryServerScoreRank`. -/
def queryServerScoreRank (scope : QueryScope) (order : SortOrder) (page pageSize : ℤ) :
    Query Fetched := do
  m.begin scope
  let totalCount ← executePreparedCount (scoreRankCountStmt scope)
  let rows ← executePreparedRows
    (scoreRankStmt scope order (normalPageSize pageSize)
      (pageOffset (normalPage page) (normalPageSize pageSize)))
  pure (.page totalCount rows)

/-- `queryLatestServerScores`. -/
def queryLatestServerScores (scope : QueryScope) : Query Fetched := do
  m.begin scope
  let rows ← executePreparedRows (latestScoreStmt scope)
  pure (.rows rows)

end QueryManager

/-! ### The calls of the service -/

/-- `QueryPerformanceRequest` and `QueryDetailRequest`. The times are the seconds of the
messages; fields that are not set are zero or empty. -/
structure DetailRequest where
  serverName : String := ""
  startSeconds : ℤ := 0
  endSeconds : ℤ := 0
  page : ℤ := 0
  pageSize : ℤ := 0
  scope : QueryScope := {}
  deriving DecidableEq, Repr

/-- `QueryTrendRequest`. -/
structure TrendRequest where
  serverName : String := ""
  startSeconds : ℤ := 0
  endSeconds : ℤ := 0
  intervalSeconds : ℤ := 0
  scope : QueryScope := {}
  deriving DecidableEq, Repr

/-- `QueryAnomalyRequest`. -/
structure AnomalyRequest where
  serverName : String := ""
  startSeconds : ℤ := 0
  endSeconds : ℤ := 0
  threshold : AnomalyThreshold
  page : ℤ := 0
  pageSize : ℤ := 0
  scope : QueryScope := {}
  deriving DecidableEq, Repr

/-- `QueryScoreRankRequest`, with the number of the order. -/
structure ScoreRankRequest where
  order : ℤ := 0
  page : ℤ := 0
  pageSize : ℤ := 0
  scope : QueryScope := {}
  deriving DecidableEq, Repr

/-- The calls of the service. -/
inductive Rpc where
  | latestScore (scope : QueryScope)
  | performance (r : DetailRequest)
  | trend (r : TrendRequest)
  | anomaly (r : AnomalyRequest)
  | scoreRank (r : ScoreRankRequest)
  | netDetail (r : DetailRequest)
  | diskDetail (r : DetailRequest)
  | memDetail (r : DetailRequest)
  | softIrqDetail (r : DetailRequest)
  | mysqlDetail (r : DetailRequest)
  | redisDetail (r : DetailRequest)
  deriving DecidableEq, Repr

/-- The scope of a call. -/
def Rpc.scope : Rpc → QueryScope
  | .latestScore scope => scope
  | .performance r | .netDetail r | .diskDetail r | .memDetail r | .softIrqDetail r
  | .mysqlDetail r | .redisDetail r => r.scope
  | .trend r => r.scope
  | .anomaly r => r.scope
  | .scoreRank r => r.scope

/-- `convertTimeRange`. -/
def convertTimeRange (startSeconds endSeconds : ℤ) : TimeRange :=
  ⟨fromTimeT startSeconds, fromTimeT endSeconds⟩

/-- A threshold of a request, or its default if it is not positive. -/
def positiveOr (x default : Flt) : Flt := if x.isPos then x else default

/-- The thresholds that `QueryAnomaly` takes from a request. -/
def AnomalyThreshold.orDefaults (t : AnomalyThreshold) : AnomalyThreshold where
  cpuThreshold := positiveOr t.cpuThreshold (.finite 80)
  memoryThreshold := positiveOr t.memoryThreshold (.finite 90)
  diskThreshold := positiveOr t.diskThreshold (.finite 85)
  changeRateThreshold := positiveOr t.changeRateThreshold (.finite (1 / 2))
  mysqlConnectionThreshold := positiveOr t.mysqlConnectionThreshold (.finite 90)
  mysqlReplicationLagThreshold := positiveOr t.mysqlReplicationLagThreshold (.finite 30)
  mysqlSlowQueryRateThreshold := positiveOr t.mysqlSlowQueryRateThreshold (.finite 1)
  mysqlLockWaitRateThreshold := positiveOr t.mysqlLockWaitRateThreshold (.finite 1)
  mysqlBufferPoolHitThreshold := positiveOr t.mysqlBufferPoolHitThreshold (.finite 95)
  redisConnectionThreshold := positiveOr t.redisConnectionThreshold (.finite 90)
  redisMemoryThreshold := positiveOr t.redisMemoryThreshold (.finite 90)
  redisHitRateThreshold := positiveOr t.redisHitRateThreshold (.finite 80)
  redisReplicationLagThreshold := positiveOr t.redisReplicationLagThreshold (.finite 30)
  redisSlowlogGrowthThreshold := positiveOr t.redisSlowlogGrowthThreshold (.finite 1)

/-- A call of the service, which fails with a status. -/
abbrev Handler := Session Prepared Reply Status Fetched

/-- The service: whether its query manager is there and initialised, and the manager. -/
structure QueryService where
  initialized : Bool
  manager : QueryManager

namespace QueryService

variable (s : QueryService)

/-- The check that the query manager can be used. -/
def checkInitialized : Session Prepared Reply Status Unit :=
  if s.initialized then pure () else Session.fail ⟨.unavailable, "Query manager not initialized"⟩

/-- The check of the time range, as the service makes it. -/
def checkRange (range : TimeRange) : Session Prepared Reply Status Unit :=
  if validateTimeRange range then pure ()
  else Session.fail ⟨.invalidArgument, "Invalid time range: start_time > end_time"⟩

/-- The calls that ask for a page of a table. -/
def detailCall (operation : QueryScope → String → TimeRange → ℤ → ℤ → Query Fetched)
    (r : DetailRequest) : Handler := do
  s.checkInitialized
  let scope ← Session.lift (convertQueryScope r.scope)
  let range := convertTimeRange r.startSeconds r.endSeconds
  checkRange range
  (operation scope r.serverName range (normalPage r.page) (normalPageSize r.pageSize)).mapError
    queryErrorStatus

/-- `QueryTrend`. -/
def queryTrend (r : TrendRequest) : Handler := do
  s.checkInitialized
  let scope ← Session.lift (convertQueryScope r.scope)
  let range := convertTimeRange r.startSeconds r.endSeconds
  checkRange range
  (s.manager.queryTrend scope r.serverName range r.intervalSeconds).mapError queryErrorStatus

/-- `QueryAnomaly`. -/
def queryAnomaly (r : AnomalyRequest) : Handler := do
  s.checkInitialized
  let scope ← Session.lift (convertQueryScope r.scope)
  let range := convertTimeRange r.startSeconds r.endSeconds
  checkRange range
  (s.manager.queryAnomalyRecords scope r.serverName range r.threshold.orDefaults
    (normalPage r.page) (normalPageSize r.pageSize)).mapError queryErrorStatus

/-- `QueryScoreRank`. -/
def queryScoreRank (r : ScoreRankRequest) : Handler := do
  s.checkInitialized
  let scope ← Session.lift (convertQueryScope r.scope)
  (s.manager.queryServerScoreRank scope (if r.order = 1 then .asc else .desc)
    (normalPage r.page) (normalPageSize r.pageSize)).mapError queryErrorStatus

/-- `QueryLatestScore`, when it is not answered from the cache. It checks the scope before
the query manager. -/
def queryLatestScore (requestScope : QueryScope) : Handler := do
  let scope ← Session.lift (convertQueryScope requestScope)
  s.checkInitialized
  (s.manager.queryLatestServerScores scope).mapError queryErrorStatus

/-- **A call of the service.** -/
def call : Rpc → Handler
  | .latestScore scope => s.queryLatestScore scope
  | .performance r => s.detailCall s.manager.queryPerformanceRecords r
  | .trend r => s.queryTrend r
  | .anomaly r => s.queryAnomaly r
  | .scoreRank r => s.queryScoreRank r
  | .netDetail r => s.detailCall s.manager.queryNetDetailRecords r
  | .diskDetail r => s.detailCall s.manager.queryDiskDetailRecords r
  | .memDetail r => s.detailCall s.manager.queryMemDetailRecords r
  | .softIrqDetail r => s.detailCall s.manager.querySoftIrqDetailRecords r
  | .mysqlDetail r => s.detailCall s.manager.queryMysqlDetailRecords r
  | .redisDetail r => s.detailCall s.manager.queryRedisDetailRecords r

end QueryService

/-! ### What the calls ask -/

/-- The text of a time in the statements of a request. -/
def timeText (p : Platform) (seconds : ℤ) : String := formatTimePoint p (fromTimeT seconds)

/-- What the placeholders of a page of a table stand for. -/
def DetailRequest.request (p : Platform) (r : DetailRequest) : Request where
  scope := r.scope
  serverName := r.serverName
  startTime := timeText p r.startSeconds
  endTime := timeText p r.endSeconds
  pageSize := normalPageSize r.pageSize
  offset := pageOffset (normalPage r.page) (normalPageSize r.pageSize)

/-- **What the placeholders of a call stand for.** -/
def Rpc.request (p : Platform) : Rpc → Request
  | .latestScore scope => { scope }
  | .performance r | .netDetail r | .diskDetail r | .memDetail r | .softIrqDetail r
  | .mysqlDetail r | .redisDetail r => r.request p
  | .trend r =>
    { scope := r.scope
      serverName := r.serverName
      startTime := timeText p r.startSeconds
      endTime := timeText p r.endSeconds
      intervalSeconds := r.intervalSeconds }
  | .anomaly r =>
    { scope := r.scope
      serverName := r.serverName
      startTime := timeText p r.startSeconds
      endTime := timeText p r.endSeconds
      threshold := r.threshold.orDefaults }
  | .scoreRank r =>
    { scope := r.scope
      pageSize := normalPageSize r.pageSize
      offset := pageOffset (normalPage r.page) (normalPageSize r.pageSize) }

/-- A statement of a request: its parameters are those of the request, and it is confined
to the scope of the request. -/
def Prepared.Of (req : Request) (p : Prepared) : Prop := p.Bound req ∧ p.Scoped req.scope

section Asks

variable {P : Prepared → Prop}

theorem asks_executePreparedRows {p : Prepared} (h : P p) : Asks P (executePreparedRows p) := by
  refine asks_bind (asks_ask h) fun reply => ?_
  cases reply with
  | ok rows => exact asks_pure rows
  | error f => exact asks_fail _

theorem asks_executePreparedCount {p : Prepared} (h : P p) : Asks P (executePreparedCount p) := by
  refine asks_bind (asks_executePreparedRows h) fun rows => ?_
  split <;> exact asks_pure _

namespace QueryManager

variable (m : QueryManager)

theorem asks_begin (scope : QueryScope) : Asks P (m.begin scope) :=
  asks_bind (asks_lift _) fun _ => asks_lift _

theorem asks_checkRange (range : TimeRange) : Asks P (checkRange range) := by
  unfold checkRange
  split
  · exact asks_pure _
  · exact asks_fail _

theorem asks_pagedRecords (table : Table) (columns : List String) (countContext context : String)
    (r : DetailRequest) :
    Asks (Prepared.Of (r.request m.platform))
      (m.pagedRecords table columns countContext context r.scope r.serverName
        (convertTimeRange r.startSeconds r.endSeconds) (normalPage r.page)
        (normalPageSize r.pageSize)) := by
  refine asks_bind (m.asks_begin _) fun _ => asks_bind (asks_checkRange _) fun _ => ?_
  rw [normalPage_normalPage, normalPageSize_normalPageSize]
  refine asks_bind (asks_executePreparedCount ?_) fun _ =>
    asks_bind (asks_executePreparedRows ?_) fun _ => asks_pure _
  · exact ⟨bound_countStmt (r.request m.platform) table countContext, scoped_countStmt ..⟩
  · exact ⟨bound_pageStmt (r.request m.platform) table columns context, scoped_pageStmt ..⟩

end QueryManager

namespace QueryService

variable (s : QueryService)

theorem asks_checkInitialized : Asks P s.checkInitialized := by
  unfold checkInitialized
  split
  · exact asks_pure _
  · exact asks_fail _

theorem asks_checkRange (range : TimeRange) : Asks P (checkRange range) := by
  unfold checkRange
  split
  · exact asks_pure _
  · exact asks_fail _

/-- After `convertQueryScope` the scope is that of the request. -/
theorem asks_convertQueryScope {requestScope : QueryScope} {f : QueryScope → Handler}
    (h : Asks P (f requestScope)) :
    Asks P (Session.lift (convertQueryScope requestScope) >>= f) := by
  cases hc : convertQueryScope requestScope with
  | error status => exact asks_fail _
  | ok scope =>
    obtain ⟨rfl, -⟩ := convertQueryScope_ok hc
    rw [bind_lift_ok]
    exact h

theorem asks_detailCall (table : Table) (columns : List String) (countContext context : String)
    (r : DetailRequest) :
    Asks (Prepared.Of (r.request s.manager.platform))
      (s.detailCall (s.manager.pagedRecords table columns countContext context) r) :=
  asks_bind s.asks_checkInitialized fun _ => asks_convertQueryScope <|
    asks_bind (asks_checkRange _) fun _ =>
      asks_mapError (s.manager.asks_pagedRecords table columns countContext context r)

/-- **Every statement that a call executes is one of its request**: confined to its scope,
with its values in the places that they belong to. -/
theorem asks_call (rpc : Rpc) :
    Asks (Prepared.Of (rpc.request s.manager.platform)) (s.call rpc) := by
  cases rpc with
  | latestScore scope =>
    refine asks_convertQueryScope <| asks_bind s.asks_checkInitialized fun _ => asks_mapError <|
      asks_bind (s.manager.asks_begin scope) fun _ =>
        asks_bind (asks_executePreparedRows ?_) fun _ => asks_pure _
    exact ⟨bound_latestScoreStmt { scope }, scoped_latestScoreStmt scope⟩
  | trend r =>
    refine asks_bind s.asks_checkInitialized fun _ => asks_convertQueryScope <|
      asks_bind (asks_checkRange _) fun _ => asks_mapError <|
      asks_bind (s.manager.asks_begin _) fun _ =>
      asks_bind (QueryManager.asks_checkRange _) fun _ =>
        asks_bind (asks_executePreparedRows ?_) fun _ => asks_pure _
    exact ⟨bound_trendStmt (Rpc.request s.manager.platform (.trend r)), scoped_trendStmt ..⟩
  | anomaly r =>
    refine asks_bind s.asks_checkInitialized fun _ => asks_convertQueryScope <|
      asks_bind (asks_checkRange _) fun _ => asks_mapError <|
      asks_bind (s.manager.asks_begin _) fun _ =>
      asks_bind (QueryManager.asks_checkRange _) fun _ =>
        asks_bind (asks_executePreparedRows ?_) fun _ =>
        asks_bind (asks_executePreparedRows ?_) fun _ =>
        asks_bind (asks_executePreparedRows ?_) fun _ => asks_pure _
    · exact ⟨bound_anomalyStmt (Rpc.request s.manager.platform (.anomaly r)), scoped_scan ..⟩
    · exact ⟨bound_mysqlAnomalyStmt (Rpc.request s.manager.platform (.anomaly r)), scoped_scan ..⟩
    · exact ⟨bound_redisAnomalyStmt (Rpc.request s.manager.platform (.anomaly r)), scoped_scan ..⟩
  | scoreRank r =>
    refine asks_bind s.asks_checkInitialized fun _ => asks_convertQueryScope <|
      asks_mapError ?_
    unfold QueryManager.queryServerScoreRank
    rw [normalPage_normalPage, normalPageSize_normalPageSize]
    refine asks_bind (s.manager.asks_begin _) fun _ =>
      asks_bind (asks_executePreparedCount ?_) fun _ =>
        asks_bind (asks_executePreparedRows ?_) fun _ => asks_pure _
    · exact ⟨bound_scoreRankCountStmt (Rpc.request s.manager.platform (.scoreRank r)),
        scoped_scoreRankCountStmt _⟩
    · exact ⟨bound_scoreRankStmt (Rpc.request s.manager.platform (.scoreRank r)) _,
        scoped_scoreRankStmt ..⟩
  | performance r => exact s.asks_detailCall _ _ _ _ r
  | netDetail r => exact s.asks_detailCall _ _ _ _ r
  | diskDetail r => exact s.asks_detailCall _ _ _ _ r
  | memDetail r => exact s.asks_detailCall _ _ _ _ r
  | softIrqDetail r => exact s.asks_detailCall _ _ _ _ r
  | mysqlDetail r => exact s.asks_detailCall _ _ _ _ r
  | redisDetail r => exact s.asks_detailCall _ _ _ _ r

theorem refuses_convertQueryScope {requestScope : QueryScope} (h : ¬ requestScope.Admitted)
    (f : QueryScope → Handler) :
    Refuses (Session.lift (convertQueryScope requestScope) >>= f) := by
  rw [convertQueryScope_of_not_admitted h]
  exact refuses_bind (refuses_lift_error _)

/-- **A call without a tenant or without a team fails, and executes no statement.** -/
theorem refuses_call {rpc : Rpc} (h : ¬ rpc.scope.Admitted) : Refuses (s.call rpc) := by
  have hdetail : ∀ (operation : QueryScope → String → TimeRange → ℤ → ℤ → Query Fetched)
      (r : DetailRequest), ¬ r.scope.Admitted → Refuses (s.detailCall operation r) :=
    fun _ _ hr => refuses_bind_of_asks s.asks_checkInitialized fun _ =>
      refuses_convertQueryScope hr _
  cases rpc with
  | latestScore scope => exact refuses_convertQueryScope h _
  | trend r | anomaly r | scoreRank r =>
    exact refuses_bind_of_asks s.asks_checkInitialized fun _ => refuses_convertQueryScope h _
  | performance r | netDetail r | diskDetail r | memDetail r | softIrqDetail r | mysqlDetail r
  | redisDetail r => exact hdetail _ r h

end QueryService

end Asks

end MonitorSystem
