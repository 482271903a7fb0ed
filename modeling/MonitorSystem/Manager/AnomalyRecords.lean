import MonitorSystem.Manager.QueryRecords

/-!
# The records of anomalies

`queryAnomalyRecords` (`manager/src/QueryManager.cpp`) reads three tables, and a statement
selects the rows in which something exceeds its threshold. Which anomaly a row shows, and how
severe it is, is decided afterwards and in memory: `performanceChecks`, `mysqlChecks` and
`redisChecks` are the tests of one row in the order of the source, each with the record that
it leaves, and `reported` are the records of the tests that hold.

The records of the three scans are put behind each other and sorted by their time, the latest
first (`Records`); `std::sort` is free in the order of records of one time.
-/

namespace MonitorSystem

open Sql

/-! ### Comparisons with a threshold -/

namespace Flt

/-- `x > t`, for a number `x`. -/
def exceededBy (t : Flt) (x : ℚ) : Bool :=
  match t with
  | .finite q => q < x
  | .nonFinite y => y = .negInf

/-- `x < t`, for a number `x`. -/
def above (t : Flt) (x : ℚ) : Bool :=
  match t with
  | .finite q => x < q
  | .nonFinite y => y = .posInf

/-- `t * k`, for a positive number `k`. -/
def times (t : Flt) (k : ℚ) : Flt :=
  match t with
  | .finite q => .finite (q * k)
  | .nonFinite y => .nonFinite y

end Flt

/-! ### Records -/

/-- `AnomalyRecord`; the timestamp in nanoseconds. -/
structure AnomalyRecord where
  serverName : String
  timestamp : ℤ
  anomalyType : String
  severity : String
  value : ℚ
  threshold : Flt
  metricName : String
  deriving DecidableEq, Repr

/-- The two severities. -/
def severityOf (critical : Bool) : String := if critical then "CRITICAL" else "WARNING"

/-- `add_anomaly`, the record of a performance row. -/
def addAnomaly (name : String) (ts : ℤ) (type metric : String) (value : ℚ) (threshold : Flt) :
    AnomalyRecord where
  serverName := name
  timestamp := ts
  anomalyType := type
  metricName := metric
  value := value
  threshold := threshold
  severity :=
    if type = "CPU_HIGH" ∧ value > 95 then "CRITICAL"
    else if type = "MEM_HIGH" ∧ value > 95 then "CRITICAL"
    else if type = "DISK_HIGH" ∧ value > 95 then "CRITICAL"
    else if type = "RATE_SPIKE" ∧ |value| > 1 then "CRITICAL"
    else "WARNING"

/-- The record of an instance; its name stands before the metric, if it has one. -/
def addInstanceAnomaly (name : String) (ts : ℤ) (instanceName type metric : String) (value : ℚ)
    (thresholdValue : Flt) (severity : String) : AnomalyRecord where
  serverName := name
  timestamp := ts
  anomalyType := type
  severity := severity
  value := value
  threshold := thresholdValue
  metricName := if instanceName = "" then metric else instanceName ++ "." ++ metric

/-- `add_mysql_anomaly`. -/
def addMysqlAnomaly := addInstanceAnomaly

/-- `add_redis_anomaly`. -/
def addRedisAnomaly := addInstanceAnomaly

/-- A test of a row, and the record it leaves if it holds. -/
abbrev Check := Bool × AnomalyRecord

/-- **The records of the tests that hold.** -/
def reported (checks : List Check) : List AnomalyRecord := (checks.filter (·.1)).map (·.2)

section Checks

variable (d : ExactDialect) (clock : Clock) (threshold : AnomalyThreshold) (row : List String)

/-- The tests of a row of `server_performance`. -/
def performanceChecks : List Check :=
  let name := textAt row 0
  let ts := timeAt clock row 1
  let cpu := toFloat d row 2
  let mem := toFloat d row 3
  let disk := toFloat d row 4
  let cpuRate := toFloat d row 5
  let memRate := toFloat d row 6
  let add := addAnomaly name ts
  [(threshold.cpuThreshold.exceededBy cpu,
      add "CPU_HIGH" "cpu_percent" cpu threshold.cpuThreshold),
    (threshold.memoryThreshold.exceededBy mem,
      add "MEM_HIGH" "mem_used_percent" mem threshold.memoryThreshold),
    (threshold.diskThreshold.exceededBy disk,
      add "DISK_HIGH" "disk_util_percent" disk threshold.diskThreshold),
    (threshold.changeRateThreshold.exceededBy |cpuRate|,
      add "RATE_SPIKE" "cpu_percent_rate" cpuRate threshold.changeRateThreshold),
    (threshold.changeRateThreshold.exceededBy |memRate|,
      add "RATE_SPIKE" "mem_used_percent_rate" memRate threshold.changeRateThreshold)]

/-- The tests of a row of `server_mysql_detail`. -/
def mysqlChecks : List Check :=
  let name := textAt row 0
  let ts := timeAt clock row 1
  let instanceName := textAt row 2
  let up := toBool row 3
  let connectionUsed := toFloat d row 4
  let replicationLag := toFloat d row 5
  let slowQueryRate := toFloat d row 6
  let lockWaitRate := toFloat d row 7
  let bufferPoolHit := toFloat d row 8
  let add := addMysqlAnomaly name ts instanceName
  [(!up, add "MYSQL_DOWN" "up" 0 (.finite 1) "CRITICAL"),
    (threshold.mysqlConnectionThreshold.exceededBy connectionUsed,
      add (if connectionUsed > 95 then "MYSQL_CONNECTION_CRITICAL" else "MYSQL_CONNECTION_HIGH")
        "connection_used_percent" connectionUsed threshold.mysqlConnectionThreshold
        (severityOf (connectionUsed > 95))),
    (threshold.mysqlReplicationLagThreshold.exceededBy replicationLag,
      add "MYSQL_REPLICATION_LAG" "replication_lag_seconds" replicationLag
        threshold.mysqlReplicationLagThreshold
        (severityOf ((threshold.mysqlReplicationLagThreshold.times 2).exceededBy replicationLag))),
    (threshold.mysqlSlowQueryRateThreshold.exceededBy slowQueryRate,
      add "MYSQL_SLOW_QUERY_SPIKE" "slow_queries_rate" slowQueryRate
        threshold.mysqlSlowQueryRateThreshold
        (severityOf ((threshold.mysqlSlowQueryRateThreshold.times 5).exceededBy slowQueryRate))),
    (threshold.mysqlLockWaitRateThreshold.exceededBy lockWaitRate,
      add "MYSQL_LOCK_WAIT_SPIKE" "innodb_row_lock_waits_rate" lockWaitRate
        threshold.mysqlLockWaitRateThreshold
        (severityOf ((threshold.mysqlLockWaitRateThreshold.times 5).exceededBy lockWaitRate))),
    (0 < bufferPoolHit && threshold.mysqlBufferPoolHitThreshold.above bufferPoolHit,
      add "MYSQL_BUFFER_POOL_LOW" "innodb_buffer_pool_hit_percent" bufferPoolHit
        threshold.mysqlBufferPoolHitThreshold (severityOf (bufferPoolHit < 90)))]

/-- The tests of a row of `server_redis_detail`. -/
def redisChecks : List Check :=
  let name := textAt row 0
  let ts := timeAt clock row 1
  let instanceName := textAt row 2
  let up := toBool row 3
  let connectionUsed := toFloat d row 4
  let memoryUsed := toFloat d row 5
  let hitRate := toFloat d row 6
  let replicationConfigured := toBool row 7
  let masterLinkUp := toBool row 8
  let replicationLag := toFloat d row 9
  let rejectedConnections := toFloat d row 10
  let slowlogGrowth := toFloat d row 11
  let add := addRedisAnomaly name ts instanceName
  [(!up, add "REDIS_DOWN" "up" 0 (.finite 1) "CRITICAL"),
    (threshold.redisConnectionThreshold.exceededBy connectionUsed,
      add (if connectionUsed > 95 then "REDIS_CONNECTION_CRITICAL" else "REDIS_CONNECTION_HIGH")
        "connection_used_percent" connectionUsed threshold.redisConnectionThreshold
        (severityOf (connectionUsed > 95))),
    (threshold.redisMemoryThreshold.exceededBy memoryUsed,
      add (if memoryUsed > 95 then "REDIS_MEMORY_CRITICAL" else "REDIS_MEMORY_HIGH")
        "memory_used_percent" memoryUsed threshold.redisMemoryThreshold
        (severityOf (memoryUsed > 95))),
    (0 < hitRate && threshold.redisHitRateThreshold.above hitRate,
      add "REDIS_HIT_RATE_LOW" "keyspace_hit_percent" hitRate threshold.redisHitRateThreshold
        (severityOf (hitRate < 60))),
    (replicationConfigured && !masterLinkUp,
      add "REDIS_REPLICATION_LINK_DOWN" "master_link_up" 0 (.finite 1) "CRITICAL"),
    (threshold.redisReplicationLagThreshold.exceededBy replicationLag,
      add "REDIS_REPLICATION_LAG" "master_last_io_seconds_ago" replicationLag
        threshold.redisReplicationLagThreshold
        (severityOf ((threshold.redisReplicationLagThreshold.times 2).exceededBy replicationLag))),
    (0 < rejectedConnections,
      add "REDIS_REJECTED_CONNECTIONS" "rejected_connections" rejectedConnections (.finite 0)
        "WARNING"),
    (threshold.redisSlowlogGrowthThreshold.exceededBy slowlogGrowth,
      add "REDIS_SLOWLOG_GROWTH" "slowlog_growth" slowlogGrowth
        threshold.redisSlowlogGrowthThreshold
        (severityOf ((threshold.redisSlowlogGrowthThreshold.times 5).exceededBy slowlogGrowth)))]

end Checks

/-! ### The three scans -/

/-- The scans of `queryAnomalyRecords`, in their order. -/
inductive Scan where
  | performance
  | mysql
  | redis
  deriving DecidableEq, Repr

namespace Scan

/-- The scans, one after the other. -/
def all : List Scan := [.performance, .mysql, .redis]

/-- The table that is scanned. -/
def table : Scan → Table
  | .performance => .serverPerformance
  | .mysql => .serverMysqlDetail
  | .redis => .serverRedisDetail

/-- The columns that are read. -/
def columns : Scan → List String
  | .performance => ["server_name", "timestamp", "cpu_percent", "mem_used_percent",
      "disk_util_percent", "cpu_percent_rate", "mem_used_percent_rate"]
  | .mysql => ["server_name", "timestamp", "instance", "up", "connection_used_percent",
      "replication_lag_seconds", "slow_queries_rate", "innodb_row_lock_waits_rate",
      "innodb_buffer_pool_hit_percent"]
  | .redis => ["server_name", "timestamp", "instance", "up", "connection_used_percent",
      "memory_used_percent", "keyspace_hit_percent", "replication_configured", "master_link_up",
      "master_last_io_seconds_ago", "rejected_connections", "slowlog_growth"]

/-- The statement of a scan. -/
def stmt (scope : QueryScope) (serverName startTime endTime : String)
    (threshold : AnomalyThreshold) : Scan → Prepared
  | .performance => anomalyStmt scope serverName startTime endTime threshold
  | .mysql => mysqlAnomalyStmt scope serverName startTime endTime threshold
  | .redis => redisAnomalyStmt scope serverName startTime endTime threshold

/-- The tests of a row. -/
def checks (d : ExactDialect) (clock : Clock) (threshold : AnomalyThreshold) :
    Scan → List String → List Check
  | .performance => performanceChecks d clock threshold
  | .mysql => mysqlChecks d clock threshold
  | .redis => redisChecks d clock threshold

/-- **The classification of a row**: the records that it leaves. -/
def classify (d : ExactDialect) (clock : Clock) (threshold : AnomalyThreshold) (s : Scan)
    (row : List String) : List AnomalyRecord :=
  reported (s.checks d clock threshold row)

end Scan

/-- The records that `queryAnomalyRecords` collects from its three scans. -/
def collected (d : ExactDialect) (clock : Clock) (threshold : AnomalyThreshold)
    (rows mysqlRows redisRows : Rows) : List AnomalyRecord :=
  rows.flatMap (Scan.performance.classify d clock threshold) ++
    mysqlRows.flatMap (Scan.mysql.classify d clock threshold) ++
    redisRows.flatMap (Scan.redis.classify d clock threshold)

/-- **The records before they are cut into pages**: what `std::sort` may make of the collected
ones. -/
abbrev Records (collected sorted : List AnomalyRecord) : Prop :=
  Paging.Listing (fun a b : AnomalyRecord => a.timestamp > b.timestamp) collected sorted

theorem weakOrder_timestamp :
    Paging.WeakOrder fun a b : AnomalyRecord => a.timestamp > b.timestamp where
  asymm _ _ h := by omega
  split _ _ _ h := by omega

/-! ### What the tests read -/

theorem reported_eq_nil_iff {checks : List Check} :
    reported checks = [] ↔ ∀ b ∈ checks.map (·.1), b = false := by
  simp [reported]

section Reading

variable {d : ExactDialect} {columns : List String} {r : Row} {i : ℕ} {c : String}

/-- The number that a metric is taken for. -/
def number (v : Value) : ℚ := v.rat?.getD 0

/-- A metric: `FLOAT` or `BIGINT UNSIGNED`, perhaps null. -/
def IsMetric (v : Value) : Prop := v = .null ∨ ∃ q, v.rat? = some q

/-- A flag: `TINYINT(1)`, perhaps null. -/
def IsFlag (v : Value) : Prop := v = .null ∨ ∃ n : ℤ, v = .int n

/-- **A metric is read as its number**, and as zero if it is null. -/
theorem toFloat_texts_eq_number (h : columns[i]? = some c) (hc : IsMetric (r.get c)) :
    toFloat d (Row.texts d.toDialect columns r) i = number (r.get c) := by
  rcases hc with hnull | ⟨q, hq⟩
  · rw [toFloat_texts_null h hnull, hnull]
    rfl
  · rw [toFloat_texts h hq, number, hq, Option.getD_some]

/-- The words for true are not made of digits and signs. -/
theorem exists_letter {w : String} (hw : w ∈ ["true", "TRUE", "yes", "YES"]) :
    ∃ x ∈ w.toList, ¬ (x.isDigit = true ∨ x = '-') := by
  simp only [List.mem_cons, List.not_mem_nil, or_false] at hw
  rcases hw with rfl | rfl | rfl | rfl
  · exact ⟨'t', by decide, by decide⟩
  · exact ⟨'T', by decide, by decide⟩
  · exact ⟨'y', by decide, by decide⟩
  · exact ⟨'Y', by decide, by decide⟩

/-- **A flag is read as true if it is one**, and else as false. -/
theorem toBool_texts (h : columns[i]? = some c) (hc : IsFlag (r.get c)) :
    toBool (Row.texts d.toDialect columns r) i = decide (r.get c = .int 1) := by
  rw [toBool, textAt_texts h]
  rcases hc with hnull | ⟨n, hn⟩
  · rw [hnull, d.fetch_null]
    decide
  · have hread : d.fetch (.int n) = "1" ↔ n = 1 := by
      constructor
      · intro htext
        -- both are read back from the same text
        have hone : d.fetch (.int 1) = "1" := d.fetch_int 1
        have hq : (n : ℚ) = (1 : ℤ) := by
          rw [← d.read_fetch (Value.rat?_int n), ← d.read_fetch (Value.rat?_int 1), htext, hone]
        exact_mod_cast hq
      · rintro rfl
        exact d.fetch_int 1
    have hword : ∀ w ∈ ["true", "TRUE", "yes", "YES"], d.fetch (.int n) ≠ w := by
      intro w hw htext
      rw [d.fetch_int, Int.toString_eq_repr] at htext
      obtain ⟨x, hx, hletter⟩ := exists_letter hw
      exact hletter (isDigit_or_of_mem_repr (htext ▸ hx))
    rw [hn]
    simp only [List.mem_cons, List.not_mem_nil, or_false] at hword ⊢
    simp only [hread, Value.int.injEq]
    grind

end Reading

end MonitorSystem
