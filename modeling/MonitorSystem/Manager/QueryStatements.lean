import MonitorSystem.Library.Sql
import MonitorSystem.Manager.MysqlWriter
import MonitorSystem.Manager.QueryScope

/-!
# The statements of the query manager

Every statement that `QueryManager` (`manager/src/QueryManager.cpp`) prepares, with the
vector of parameters that the source builds beside it. The statement and its parameters are
assembled in different places, and both depend on the scope: `scopePredicate` has a third
comparison, and `appendScopeParams` a third value, when the scope names a cluster.

`Prepared.Bound` says that the parameters are the ones that the placeholders stand for, in
number and in order: each placeholder is known by the place in which it stands
(`Sql.Place`), and `Request.value` says what belongs there. It holds of every statement of
this file, with and without a cluster.
-/

namespace MonitorSystem

open Sql

/-! ### Values that are bound -/

/-- A `float` or `double` of a request. -/
inductive Flt where
  | finite (q : ℚ)
  | nonFinite (x : NonFinite)
  deriving DecidableEq, Repr

namespace Flt

/-- `x > 0`. -/
def isPos : Flt → Bool
  | .finite q => 0 < q
  | .nonFinite x => x = .posInf

end Flt

/-- `stringParam`. -/
def stringParam (value : String) : Value := .text value

/-- `intParam`. -/
def intParam (value : ℤ) : Value := .int value

/-- `doubleParam`. -/
def doubleParam : Flt → Value
  | .finite q => .num q
  | .nonFinite x => .nonFinite x

/-- `AnomalyThreshold`, with the defaults of its declaration. -/
structure AnomalyThreshold where
  cpuThreshold : Flt := .finite 80
  memoryThreshold : Flt := .finite 90
  diskThreshold : Flt := .finite 85
  changeRateThreshold : Flt := .finite (1 / 2)
  mysqlConnectionThreshold : Flt := .finite 90
  mysqlReplicationLagThreshold : Flt := .finite 30
  mysqlSlowQueryRateThreshold : Flt := .finite 1
  mysqlLockWaitRateThreshold : Flt := .finite 1
  mysqlBufferPoolHitThreshold : Flt := .finite 95
  redisConnectionThreshold : Flt := .finite 90
  redisMemoryThreshold : Flt := .finite 90
  redisHitRateThreshold : Flt := .finite 80
  redisReplicationLagThreshold : Flt := .finite 30
  redisSlowlogGrowthThreshold : Flt := .finite 1
  deriving DecidableEq, Repr

/-! ### The scope in a statement -/

/-- A comparison of a column with a placeholder. -/
def equals (column : String) : Cond := .param .eq (.column column)

/-- `column > ?`. -/
def greater (column : String) : Cond := .param .gt (.column column)

/-- `column < ?`. -/
def less (column : String) : Cond := .param .lt (.column column)

/-- **`scopePredicate`.** -/
def scopePredicate (scope : QueryScope) : List Cond :=
  [equals "tenant_id", equals "team_id"] ++
    if scope.clusterId ≠ "" then [equals "cluster_id"] else []

/-- **`appendScopeParams`.** -/
def appendScopeParams (params : List Value) (scope : QueryScope) : List Value :=
  params ++ [stringParam scope.tenantId, stringParam scope.teamId] ++
    if scope.clusterId ≠ "" then [stringParam scope.clusterId] else []

/-- A statement with its parameters, and the word for it in error messages. -/
structure Prepared where
  stmt : Stmt Table
  params : List Value
  context : String
  deriving DecidableEq, Repr

/-! ### Paged queries of one server -/

/-- The conditions of the queries about one server in a time range. -/
def serverWhere (scope : QueryScope) : List Cond :=
  scopePredicate scope ++ [equals "server_name", .between (.column "timestamp")]

/-- Their parameters. -/
def serverParams (scope : QueryScope) (serverName startTime endTime : String) : List Value :=
  appendScopeParams [] scope ++
    [stringParam serverName, stringParam startTime, stringParam endTime]

/-- The count before a page. -/
def countStmt (table : Table) (context : String) (scope : QueryScope)
    (serverName startTime endTime : String) : Prepared where
  stmt := ⟨table, serverWhere scope, .count⟩
  params := serverParams scope serverName startTime endTime
  context := context

/-- A page, the latest rows first. -/
def pageStmt (table : Table) (columns : List String) (context : String) (scope : QueryScope)
    (serverName startTime endTime : String) (pageSize offset : ℤ) : Prepared where
  stmt := ⟨table, serverWhere scope, .rows columns "timestamp" .desc true⟩
  params := serverParams scope serverName startTime endTime ++
    [intParam pageSize, intParam offset]
  context := context

/-! ### Trend -/

/-- The columns of a trend. -/
def trendColumns : List String :=
  ["cpu_percent", "usr_percent", "system_percent", "io_wait_percent", "load_avg_1",
    "load_avg_3", "load_avg_15", "mem_used_percent", "disk_util_percent", "send_rate",
    "rcv_rate", "score", "cpu_percent_rate", "mem_used_percent_rate",
    "disk_util_percent_rate", "load_avg_1_rate"]

/-- The statement of `queryTrend`: averages by time bucket, or the rows as they are. -/
def trendStmt (scope : QueryScope) (serverName startTime endTime : String)
    (intervalSeconds : ℤ) : Prepared :=
  if intervalSeconds > 0 then
    { stmt := ⟨.serverPerformance, serverWhere scope,
        .buckets "server_name" "timestamp" trendColumns⟩
      params := appendScopeParams [intParam intervalSeconds, intParam intervalSeconds] scope ++
        [stringParam serverName, stringParam startTime, stringParam endTime]
      context := "trend query" }
  else
    { stmt := ⟨.serverPerformance, serverWhere scope,
        .rows ("server_name" :: "timestamp" :: trendColumns) "timestamp" .asc false⟩
      params := serverParams scope serverName startTime endTime
      context := "trend query" }

/-! ### Anomalies -/

/-- The conditions that the three scans begin with; an empty server name means all
servers. -/
def anomalyWhere (scope : QueryScope) (serverName : String) : List Cond :=
  scopePredicate scope ++ [.between (.column "timestamp")] ++
    if serverName ≠ "" then [equals "server_name"] else []

/-- Their parameters. -/
def anomalyParams (scope : QueryScope) (serverName startTime endTime : String) : List Value :=
  appendScopeParams [] scope ++ [stringParam startTime, stringParam endTime] ++
    if serverName ≠ "" then [stringParam serverName] else []

/-- The scan of `server_performance`. -/
def anomalyStmt (scope : QueryScope) (serverName startTime endTime : String)
    (threshold : AnomalyThreshold) : Prepared where
  stmt :=
    { table := .serverPerformance
      conds := anomalyWhere scope serverName ++
        [.or (.or (.or (.or (greater "cpu_percent") (greater "mem_used_percent"))
          (greater "disk_util_percent")) (.param .gt (.abs "cpu_percent_rate")))
          (.param .gt (.abs "mem_used_percent_rate"))]
      shape := .rows ["server_name", "timestamp", "cpu_percent", "mem_used_percent",
        "disk_util_percent", "cpu_percent_rate", "mem_used_percent_rate"] "timestamp" .desc false }
  params := anomalyParams scope serverName startTime endTime ++
    [doubleParam threshold.cpuThreshold, doubleParam threshold.memoryThreshold,
      doubleParam threshold.diskThreshold, doubleParam threshold.changeRateThreshold,
      doubleParam threshold.changeRateThreshold]
  context := "anomaly query"

/-- The scan of `server_mysql_detail`. -/
def mysqlAnomalyStmt (scope : QueryScope) (serverName startTime endTime : String)
    (threshold : AnomalyThreshold) : Prepared where
  stmt :=
    { table := .serverMysqlDetail
      conds := anomalyWhere scope serverName ++
        [.or (.or (.or (.or (.or (.const .eq (.column "up") 0) (greater "connection_used_percent"))
          (.and (.const .eq (.column "replication_configured") 1)
            (greater "replication_lag_seconds")))
          (greater "slow_queries_rate")) (greater "innodb_row_lock_waits_rate"))
          (.and (.const .gt (.column "innodb_buffer_pool_hit_percent") 0)
            (less "innodb_buffer_pool_hit_percent"))]
      shape := .rows ["server_name", "timestamp", "instance", "up", "connection_used_percent",
        "replication_lag_seconds", "slow_queries_rate", "innodb_row_lock_waits_rate",
        "innodb_buffer_pool_hit_percent"] "timestamp" .desc false }
  params := anomalyParams scope serverName startTime endTime ++
    [doubleParam threshold.mysqlConnectionThreshold,
      doubleParam threshold.mysqlReplicationLagThreshold,
      doubleParam threshold.mysqlSlowQueryRateThreshold,
      doubleParam threshold.mysqlLockWaitRateThreshold,
      doubleParam threshold.mysqlBufferPoolHitThreshold]
  context := "mysql anomaly query"

/-- The scan of `server_redis_detail`. -/
def redisAnomalyStmt (scope : QueryScope) (serverName startTime endTime : String)
    (threshold : AnomalyThreshold) : Prepared where
  stmt :=
    { table := .serverRedisDetail
      conds := anomalyWhere scope serverName ++
        [.or (.or (.or (.or (.or (.or (.or (.const .eq (.column "up") 0)
          (greater "connection_used_percent")) (greater "memory_used_percent"))
          (.and (.const .gt (.column "keyspace_hit_percent") 0) (less "keyspace_hit_percent")))
          (.and (.const .eq (.column "replication_configured") 1)
            (.const .eq (.column "master_link_up") 0)))
          (greater "master_last_io_seconds_ago"))
          (.const .gt (.column "rejected_connections") 0)) (greater "slowlog_growth")]
      shape := .rows ["server_name", "timestamp", "instance", "up", "connection_used_percent",
        "memory_used_percent", "keyspace_hit_percent", "replication_configured", "master_link_up",
        "master_last_io_seconds_ago", "rejected_connections", "slowlog_growth"]
        "timestamp" .desc false }
  params := anomalyParams scope serverName startTime endTime ++
    [doubleParam threshold.redisConnectionThreshold, doubleParam threshold.redisMemoryThreshold,
      doubleParam threshold.redisHitRateThreshold,
      doubleParam threshold.redisReplicationLagThreshold,
      doubleParam threshold.redisSlowlogGrowthThreshold]
  context := "redis anomaly query"

/-! ### Scores -/

/-- `SortOrder`. -/
inductive SortOrder where
  | desc
  | asc
  deriving DecidableEq, Repr

/-- The direction it is written as. -/
def SortOrder.direction : SortOrder → Direction
  | .desc => .desc
  | .asc => .asc

/-- The columns of a score. -/
def scoreColumns : List String :=
  ["server_name", "score", "timestamp", "cpu_percent", "mem_used_percent", "disk_util_percent",
    "load_avg_1"]

/-- The columns by which the latest rows are grouped. -/
def scoreKeyColumns : List String := ["tenant_id", "team_id", "cluster_id", "server_name"]

/-- The count of `queryServerScoreRank`. -/
def scoreRankCountStmt (scope : QueryScope) : Prepared where
  stmt := ⟨.serverPerformance, scopePredicate scope, .countDistinct "server_name"⟩
  params := appendScopeParams [] scope
  context := "score rank count"

/-- The page of `queryServerScoreRank`. -/
def scoreRankStmt (scope : QueryScope) (order : SortOrder) (pageSize offset : ℤ) : Prepared where
  stmt := ⟨.serverPerformance, scopePredicate scope,
    .latest scoreColumns scoreKeyColumns "timestamp" "score" order.direction true⟩
  params := appendScopeParams [] scope ++ [intParam pageSize, intParam offset]
  context := "score rank query"

/-- The statement of `queryLatestServerScores`. -/
def latestScoreStmt (scope : QueryScope) : Prepared where
  stmt := ⟨.serverPerformance, scopePredicate scope,
    .latest scoreColumns scoreKeyColumns "timestamp" "score" .desc false⟩
  params := appendScopeParams [] scope
  context := "latest score query"

/-! ### Every parameter is bound where it belongs -/

/-- What the statements of a request are about. -/
structure Request where
  scope : QueryScope
  serverName : String := ""
  startTime : String := ""
  endTime : String := ""
  threshold : AnomalyThreshold := {}
  intervalSeconds : ℤ := 0
  pageSize : ℤ := 0
  offset : ℤ := 0
  deriving DecidableEq, Repr

/-- The thresholds that columns of a table are compared with from above. -/
def AnomalyThreshold.upper (threshold : AnomalyThreshold) : Table → List (String × Flt)
  | .serverPerformance =>
    [("cpu_percent", threshold.cpuThreshold), ("mem_used_percent", threshold.memoryThreshold),
      ("disk_util_percent", threshold.diskThreshold)]
  | .serverMysqlDetail =>
    [("connection_used_percent", threshold.mysqlConnectionThreshold),
      ("replication_lag_seconds", threshold.mysqlReplicationLagThreshold),
      ("slow_queries_rate", threshold.mysqlSlowQueryRateThreshold),
      ("innodb_row_lock_waits_rate", threshold.mysqlLockWaitRateThreshold)]
  | .serverRedisDetail =>
    [("connection_used_percent", threshold.redisConnectionThreshold),
      ("memory_used_percent", threshold.redisMemoryThreshold),
      ("master_last_io_seconds_ago", threshold.redisReplicationLagThreshold),
      ("slowlog_growth", threshold.redisSlowlogGrowthThreshold)]
  | _ => []

/-- The thresholds that columns of a table are compared with from below. -/
def AnomalyThreshold.lower (threshold : AnomalyThreshold) : Table → List (String × Flt)
  | .serverMysqlDetail =>
    [("innodb_buffer_pool_hit_percent", threshold.mysqlBufferPoolHitThreshold)]
  | .serverRedisDetail => [("keyspace_hit_percent", threshold.redisHitRateThreshold)]
  | _ => []

/-- The columns that are compared with a text of the request. A cluster is compared only
where one is asked for. -/
def Request.texts (req : Request) : List (String × String) :=
  [("tenant_id", req.scope.tenantId), ("team_id", req.scope.teamId),
    ("server_name", req.serverName)] ++
    if req.scope.clusterId ≠ "" then [("cluster_id", req.scope.clusterId)] else []

/-- **What belongs in a place** of a statement on a table, if anything does. -/
def Request.value (req : Request) (table : Table) : Place → Option Value
  | .compared .eq (.column c) => (req.texts.lookup c).map stringParam
  | .compared .gt (.column c) => ((req.threshold.upper table).lookup c).map doubleParam
  | .compared .lt (.column c) => ((req.threshold.lower table).lookup c).map doubleParam
  | .compared .gt (.abs c) =>
    if c = "cpu_percent_rate" ∨ c = "mem_used_percent_rate" then
      some (doubleParam req.threshold.changeRateThreshold)
    else none
  | .low (.column c) => if c = "timestamp" then some (stringParam req.startTime) else none
  | .high (.column c) => if c = "timestamp" then some (stringParam req.endTime) else none
  | .bucket => some (intParam req.intervalSeconds)
  | .limit => some (intParam req.pageSize)
  | .offset => some (intParam req.offset)
  | _ => none

/-- **The parameters match the placeholders**, in number and in order. -/
def Prepared.Bound (req : Request) (p : Prepared) : Prop :=
  p.stmt.places.map (req.value p.stmt.table) = p.params.map some

section Bound

variable (req : Request)

section Value

variable (table : Table) (column : String)

@[simp] theorem Request.value_eq :
    req.value table (.compared .eq (.column column)) =
      (req.texts.lookup column).map stringParam := rfl

@[simp] theorem Request.value_gt :
    req.value table (.compared .gt (.column column)) =
      ((req.threshold.upper table).lookup column).map doubleParam := rfl

@[simp] theorem Request.value_lt :
    req.value table (.compared .lt (.column column)) =
      ((req.threshold.lower table).lookup column).map doubleParam := rfl

@[simp] theorem Request.value_abs :
    req.value table (.compared .gt (.abs column)) =
      if column = "cpu_percent_rate" ∨ column = "mem_used_percent_rate" then
        some (doubleParam req.threshold.changeRateThreshold)
      else none := rfl

@[simp] theorem Request.value_low :
    req.value table (.low (.column column)) =
      if column = "timestamp" then some (stringParam req.startTime) else none := rfl

@[simp] theorem Request.value_high :
    req.value table (.high (.column column)) =
      if column = "timestamp" then some (stringParam req.endTime) else none := rfl

@[simp] theorem Request.value_bucket :
    req.value table .bucket = some (intParam req.intervalSeconds) := rfl

@[simp] theorem Request.value_limit :
    req.value table .limit = some (intParam req.pageSize) := rfl

@[simp] theorem Request.value_offset :
    req.value table .offset = some (intParam req.offset) := rfl

end Value

/-- The comparisons of the scope are bound to the scope. -/
theorem map_value_scopePredicate (table : Table) :
    ((scopePredicate req.scope).flatMap Cond.places).map (req.value table) =
      (appendScopeParams [] req.scope).map some := by
  by_cases h : req.scope.clusterId = "" <;>
    simp [scopePredicate, appendScopeParams, equals, Request.texts, List.lookup_cons, h]

theorem map_value_serverWhere (table : Table) :
    ((serverWhere req.scope).flatMap Cond.places).map (req.value table) =
      (serverParams req.scope req.serverName req.startTime req.endTime).map some := by
  rw [serverWhere, serverParams, List.flatMap_append, List.map_append, List.map_append,
    map_value_scopePredicate]
  simp [equals, Request.texts, List.lookup_cons]

theorem map_value_anomalyWhere (table : Table) :
    ((anomalyWhere req.scope req.serverName).flatMap Cond.places).map (req.value table) =
      (anomalyParams req.scope req.serverName req.startTime req.endTime).map some := by
  rw [anomalyWhere, anomalyParams]
  simp only [List.flatMap_append, List.map_append, map_value_scopePredicate]
  by_cases h : req.serverName = "" <;>
    simp [equals, Request.texts, List.lookup_cons, h]

theorem bound_countStmt (table : Table) (context : String) :
    (countStmt table context req.scope req.serverName req.startTime req.endTime).Bound req := by
  simp [Prepared.Bound, countStmt, Stmt.places, map_value_serverWhere]

theorem bound_pageStmt (table : Table) (columns : List String) (context : String) :
    (pageStmt table columns context req.scope req.serverName req.startTime req.endTime req.pageSize
      req.offset).Bound req := by
  simp [Prepared.Bound, pageStmt, Stmt.places, map_value_serverWhere]

theorem bound_trendStmt :
    (trendStmt req.scope req.serverName req.startTime req.endTime req.intervalSeconds).Bound
      req := by
  unfold trendStmt
  split
  · simp [Prepared.Bound, Stmt.places, map_value_serverWhere, serverParams, appendScopeParams]
  · simp [Prepared.Bound, Stmt.places, map_value_serverWhere]

theorem bound_anomalyStmt :
    (anomalyStmt req.scope req.serverName req.startTime req.endTime req.threshold).Bound req := by
  simp [Prepared.Bound, anomalyStmt, Stmt.places, map_value_anomalyWhere, greater, List.lookup_cons,
    AnomalyThreshold.upper]

theorem bound_mysqlAnomalyStmt :
    (mysqlAnomalyStmt req.scope req.serverName req.startTime req.endTime req.threshold).Bound
      req := by
  simp [Prepared.Bound, mysqlAnomalyStmt, Stmt.places, map_value_anomalyWhere, greater, less,
    List.lookup_cons, AnomalyThreshold.upper, AnomalyThreshold.lower]

theorem bound_redisAnomalyStmt :
    (redisAnomalyStmt req.scope req.serverName req.startTime req.endTime req.threshold).Bound
      req := by
  simp [Prepared.Bound, redisAnomalyStmt, Stmt.places, map_value_anomalyWhere, greater, less,
    List.lookup_cons, AnomalyThreshold.upper, AnomalyThreshold.lower]

theorem bound_scoreRankCountStmt : (scoreRankCountStmt req.scope).Bound req := by
  simp [Prepared.Bound, scoreRankCountStmt, Stmt.places, map_value_scopePredicate]

theorem bound_scoreRankStmt (order : SortOrder) :
    (scoreRankStmt req.scope order req.pageSize req.offset).Bound req := by
  simp [Prepared.Bound, scoreRankStmt, Stmt.places, map_value_scopePredicate]

theorem bound_latestScoreStmt : (latestScoreStmt req.scope).Bound req := by
  simp [Prepared.Bound, latestScoreStmt, Stmt.places, map_value_scopePredicate]

end Bound

/-! ### Every statement is confined to its scope -/

/-- A row of the scope: its tenant, its team and, if one is asked for, its cluster. -/
def InScope (scope : QueryScope) (r : Row) : Prop :=
  r.get "tenant_id" = .text scope.tenantId ∧ r.get "team_id" = .text scope.teamId ∧
    (scope.clusterId ≠ "" → r.get "cluster_id" = .text scope.clusterId)

instance (scope : QueryScope) (r : Row) : Decidable (InScope scope r) :=
  inferInstanceAs (Decidable (_ ∧ _ ∧ (_ → _)))

/-- The columns of the scope hold texts. -/
def ScopeTyped (r : Row) : Prop :=
  ∀ c ∈ ["tenant_id", "team_id", "cluster_id"], ∃ s, r.get c = .text s

/-- **The contents of the monitoring tables.** The columns of the scope are declared
`VARCHAR(128) NOT NULL`. -/
structure Database where
  rows : Table → List Row
  typed : ∀ table, ∀ r ∈ rows table, ScopeTyped r

/-- The conditions of a statement begin with those of the scope, their parameters with
those of the scope, and a join keeps to the columns of the scope. -/
structure Prepared.Scoped (scope : QueryScope) (p : Prepared) : Prop where
  conds : scopePredicate scope <+: p.stmt.conds
  params : appendScopeParams [] scope <+: p.stmt.condParams p.params
  key : ∀ columns key time orderBy dir paged,
    p.stmt.shape = .latest columns key time orderBy dir paged →
      ∀ c ∈ ["tenant_id", "team_id", "cluster_id"], c ∈ key

section Conditions

variable {d : Dialect} {scope : QueryScope} {r : Row}

/-- The server compares texts as texts. -/
theorem eq_text_eq_decide {v : Value} {s : String} (hv : ∃ t, v = .text t) :
    d.eq v (.text s) = decide (v = .text s) := by
  obtain ⟨t, rfl⟩ := hv
  rw [d.eq_text]
  simp

/-- **The conditions of the scope hold in the rows of the scope.** What comes after them is
not affected. -/
theorem evalAll_scopePredicate (hr : ScopeTyped r) (conds : List Cond) (params : List Value) :
    evalAll d r (scopePredicate scope ++ conds) (appendScopeParams [] scope ++ params) =
      (decide (InScope scope r) && evalAll d r conds params) := by
  have htenant := hr "tenant_id" (by simp)
  have hteam := hr "team_id" (by simp)
  have hcluster := hr "cluster_id" (by simp)
  -- with and without a cluster, the parameters stand under the columns of the scope
  by_cases hc : scope.clusterId = ""
  · simp [scopePredicate, appendScopeParams, equals, evalAll, Cond.eval, Cmp.eval, Term.eval, nth,
      stringParam, hc, InScope, eq_text_eq_decide htenant, eq_text_eq_decide hteam,
      Bool.decide_and, Bool.and_assoc]
  · simp [scopePredicate, appendScopeParams, equals, evalAll, Cond.eval, Cmp.eval, Term.eval, nth,
      stringParam, hc, InScope, eq_text_eq_decide htenant, eq_text_eq_decide hteam,
      eq_text_eq_decide hcluster, Bool.decide_and, Bool.and_assoc]

end Conditions

namespace Prepared.Scoped

variable {d : Dialect} {db : Database} {scope : QueryScope} {p : Prepared}

theorem inScope_of_matching (hp : p.Scoped scope) {r : Row}
    (hr : r ∈ p.stmt.matching d db.rows p.params) : InScope scope r := by
  obtain ⟨hmem, heval⟩ := List.mem_filter.mp hr
  obtain ⟨rest, hconds⟩ := hp.conds
  obtain ⟨params, hparams⟩ := hp.params
  rw [← hconds, ← hparams, evalAll_scopePredicate (db.typed _ r hmem), Bool.and_eq_true] at heval
  exact of_decide_eq_true heval.1

/-- A row that the join reaches has the scope of a row that meets the conditions. -/
theorem inScope_of_joined (hp : p.Scoped scope) {columns key : List String}
    {time orderBy : String} {dir : Direction} {paged : Bool}
    (hshape : p.stmt.shape = .latest columns key time orderBy dir paged) {r : Row}
    (hr : r ∈ joined d key time (db.rows p.stmt.table)
      (groups d key time (p.stmt.matching d db.rows p.params))) : InScope scope r := by
  obtain ⟨hmem, m, hm, heq⟩ := exists_of_mem_joined hr
  obtain ⟨htenant, hteam, hcluster⟩ := hp.inScope_of_matching hm
  have htyped := db.typed _ r hmem
  -- the join compares the columns of the scope, and they hold texts
  have hcol : ∀ c ∈ ["tenant_id", "team_id", "cluster_id"], ∀ s, m.get c = .text s →
      r.get c = .text s := by
    intro c hc s hs
    have := heq c (hp.key _ _ _ _ _ _ hshape c hc)
    rw [hs, eq_text_eq_decide (htyped c hc)] at this
    exact of_decide_eq_true this
  exact ⟨hcol _ (by simp) _ htenant, hcol _ (by simp) _ hteam,
    fun hne => hcol _ (by simp) _ (hcluster hne)⟩

/-- **Every row from which an answer is computed is a row of the scope.** -/
theorem inScope_of_sources (hp : p.Scoped scope) {r : Row}
    (hr : r ∈ p.stmt.sources d db.rows p.params) : InScope scope r := by
  unfold Stmt.sources at hr
  split at hr
  · next hshape =>
    rcases List.mem_append.mp hr with hr | hr
    · exact hp.inScope_of_matching hr
    · exact hp.inScope_of_joined hshape hr
  · exact hp.inScope_of_matching hr

/-- **The answers to a statement are those of the rows of its scope.** -/
theorem answers_iff (hp : p.Scoped scope) (result : List (List String)) :
    p.stmt.Answers d (Stmt.restrict (fun r => decide (InScope scope r)) db.rows) p.params result ↔
      p.stmt.Answers d db.rows p.params result :=
  Stmt.answers_restrict (fun _ hr => decide_eq_true (hp.inScope_of_sources hr)) result

end Prepared.Scoped

section Scoped

variable (scope : QueryScope)

theorem scoped_countStmt (table : Table) (context serverName startTime endTime : String) :
    (countStmt table context scope serverName startTime endTime).Scoped scope :=
  ⟨List.prefix_append _ _, List.prefix_append _ _, by simp [countStmt]⟩

theorem scoped_pageStmt (table : Table) (columns : List String)
    (context serverName startTime endTime : String) (pageSize offset : ℤ) :
    (pageStmt table columns context scope serverName startTime endTime pageSize offset).Scoped
      scope :=
  ⟨List.prefix_append _ _, by simp [pageStmt, Stmt.condParams, serverParams],
    by simp [pageStmt]⟩

theorem scoped_trendStmt (serverName startTime endTime : String) (intervalSeconds : ℤ) :
    (trendStmt scope serverName startTime endTime intervalSeconds).Scoped scope := by
  unfold trendStmt
  split
  · exact ⟨List.prefix_append _ _, by simp [Stmt.condParams, appendScopeParams],
      by simp⟩
  · exact ⟨List.prefix_append _ _, List.prefix_append _ _, by simp⟩

/-- The three scans begin alike. -/
theorem scoped_scan (table : Table) (columns : List String) (conds : List Cond)
    (params : List Value) (context serverName startTime endTime : String) :
    Prepared.Scoped scope
      { stmt := ⟨table, anomalyWhere scope serverName ++ conds,
          .rows columns "timestamp" .desc false⟩
        params := anomalyParams scope serverName startTime endTime ++ params
        context } :=
  ⟨by simp [anomalyWhere], by simp [Stmt.condParams, anomalyParams], by simp⟩

theorem scoped_scoreRankCountStmt : (scoreRankCountStmt scope).Scoped scope :=
  ⟨List.prefix_rfl, List.prefix_rfl, by simp [scoreRankCountStmt]⟩

theorem scoped_scoreRankStmt (order : SortOrder) (pageSize offset : ℤ) :
    (scoreRankStmt scope order pageSize offset).Scoped scope := by
  refine ⟨List.prefix_rfl, List.prefix_append _ _, ?_⟩
  rintro _ _ _ _ _ _ ⟨⟩
  simp [scoreKeyColumns]

theorem scoped_latestScoreStmt : (latestScoreStmt scope).Scoped scope := by
  refine ⟨List.prefix_rfl, List.prefix_rfl, ?_⟩
  rintro _ _ _ _ _ _ ⟨⟩
  simp [scoreKeyColumns]

end Scoped

end MonitorSystem
