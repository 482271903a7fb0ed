import MonitorSystem.Manager.DetailTables
import MonitorSystem.Manager.PerformanceRoundTrip

/-!
# From the instances of a push to the records of a query, and back

A MySQL instance is written by position into thirty-six columns, a Redis instance into forty,
and thirty-three and thirty-seven of them are read back by position
(`mysqlDetailRecord`, `redisDetailRecord`). What the records ought to be is
`MysqlDetailRecord.Reports` and `RedisDetailRecord.Reports`: each field that was pushed with
the value that was pushed.

`instances_round_trip` is about a whole push, with any number of instances: once its
statements have been executed, the two queries hand out the rows of before and exactly one
record for each instance, and this record is the right one.
-/

namespace MonitorSystem

open Sql MysqlWriter ColumnType

/-! ### The records -/

/-- `MysqlDetailRecord`; the timestamp in nanoseconds. -/
structure MysqlDetailRecord where
  serverName : String
  instanceName : String
  timestamp : ℤ
  mysqlHost : String
  mysqlPort : ℤ
  up : Bool
  version : String
  role : String
  maxConnections : UInt64
  threadsConnected : UInt64
  threadsRunning : UInt64
  abortedConnects : UInt64
  questions : UInt64
  comSelect : UInt64
  comInsert : UInt64
  comUpdate : UInt64
  comDelete : UInt64
  comCommit : UInt64
  comRollback : UInt64
  slowQueries : UInt64
  innodbBufferPoolReadRequests : UInt64
  innodbBufferPoolReads : UInt64
  innodbBufferPoolHitPercent : ℚ
  innodbRowLockWaits : UInt64
  innodbRowLockTimeAvgMs : ℚ
  replicationConfigured : Bool
  replicationRunning : Bool
  replicationLagSeconds : ℚ
  connectionUsedPercent : ℚ
  qps : ℚ
  tps : ℚ
  slowQueriesRate : ℚ
  innodbRowLockWaitsRate : ℚ
  deriving DecidableEq, Repr

/-- `RedisDetailRecord`; the timestamp in nanoseconds. -/
structure RedisDetailRecord where
  serverName : String
  instanceName : String
  timestamp : ℤ
  redisHost : String
  redisPort : ℤ
  up : Bool
  version : String
  role : String
  uptimeInSeconds : UInt64
  connectedClients : UInt64
  blockedClients : UInt64
  maxclients : UInt64
  connectionUsedPercent : ℚ
  usedMemory : UInt64
  maxmemory : UInt64
  memFragmentationRatio : ℚ
  memoryUsedPercent : ℚ
  totalCommandsProcessed : UInt64
  instantaneousOpsPerSec : ℚ
  commandsPerSec : ℚ
  keyspaceHits : UInt64
  keyspaceMisses : UInt64
  keyspaceHitPercent : ℚ
  expiredKeys : UInt64
  evictedKeys : UInt64
  rejectedConnections : UInt64
  totalErrorReplies : UInt64
  totalNetInputBytes : UInt64
  totalNetOutputBytes : UInt64
  netInputBytesPerSec : ℚ
  netOutputBytesPerSec : ℚ
  replicationConfigured : Bool
  masterLinkUp : Bool
  connectedSlaves : UInt64
  masterLastIoSecondsAgo : ℚ
  slowlogLen : UInt64
  slowlogGrowth : ℚ
  deriving DecidableEq, Repr

/-- `static_cast<int>`. -/
def toInt (n : ℤ) : ℤ := n.bmod (2 ^ 32)

/-- The record that `queryMysqlDetailRecords` makes of a row, if no number is refused. -/
def mysqlDetailRecord (d : ExactDialect) (clock : Clock) (row : List String) :
    Option MysqlDetailRecord := do
  return {
    serverName := textAt row 0
    instanceName := textAt row 1
    timestamp := timeAt clock row 2
    mysqlHost := textAt row 3
    mysqlPort := toInt (← toI64 row 4)
    up := toBool row 5
    version := textAt row 6
    role := textAt row 7
    maxConnections := ← toU64 row 8
    threadsConnected := ← toU64 row 9
    threadsRunning := ← toU64 row 10
    abortedConnects := ← toU64 row 11
    questions := ← toU64 row 12
    comSelect := ← toU64 row 13
    comInsert := ← toU64 row 14
    comUpdate := ← toU64 row 15
    comDelete := ← toU64 row 16
    comCommit := ← toU64 row 17
    comRollback := ← toU64 row 18
    slowQueries := ← toU64 row 19
    innodbBufferPoolReadRequests := ← toU64 row 20
    innodbBufferPoolReads := ← toU64 row 21
    innodbBufferPoolHitPercent := toFloat d row 22
    innodbRowLockWaits := ← toU64 row 23
    innodbRowLockTimeAvgMs := toFloat d row 24
    replicationConfigured := toBool row 25
    replicationRunning := toBool row 26
    replicationLagSeconds := toFloat d row 27
    connectionUsedPercent := toFloat d row 28
    qps := toFloat d row 29
    tps := toFloat d row 30
    slowQueriesRate := toFloat d row 31
    innodbRowLockWaitsRate := toFloat d row 32 }

/-- The record that `queryRedisDetailRecords` makes of a row, if no number is refused. -/
def redisDetailRecord (d : ExactDialect) (clock : Clock) (row : List String) :
    Option RedisDetailRecord := do
  return {
    serverName := textAt row 0
    instanceName := textAt row 1
    timestamp := timeAt clock row 2
    redisHost := textAt row 3
    redisPort := toInt (← toI64 row 4)
    up := toBool row 5
    version := textAt row 6
    role := textAt row 7
    uptimeInSeconds := ← toU64 row 8
    connectedClients := ← toU64 row 9
    blockedClients := ← toU64 row 10
    maxclients := ← toU64 row 11
    connectionUsedPercent := toFloat d row 12
    usedMemory := ← toU64 row 13
    maxmemory := ← toU64 row 14
    memFragmentationRatio := toFloat d row 15
    memoryUsedPercent := toFloat d row 16
    totalCommandsProcessed := ← toU64 row 17
    instantaneousOpsPerSec := toFloat d row 18
    commandsPerSec := toFloat d row 19
    keyspaceHits := ← toU64 row 20
    keyspaceMisses := ← toU64 row 21
    keyspaceHitPercent := toFloat d row 22
    expiredKeys := ← toU64 row 23
    evictedKeys := ← toU64 row 24
    rejectedConnections := ← toU64 row 25
    totalErrorReplies := ← toU64 row 26
    totalNetInputBytes := ← toU64 row 27
    totalNetOutputBytes := ← toU64 row 28
    netInputBytesPerSec := toFloat d row 29
    netOutputBytesPerSec := toFloat d row 30
    replicationConfigured := toBool row 31
    masterLinkUp := toBool row 32
    connectedSlaves := ← toU64 row 33
    masterLastIoSecondsAgo := toFloat d row 34
    slowlogLen := ← toU64 row 35
    slowlogGrowth := toFloat d row 36 }

/-! ### What the records ought to be -/

/-- The name of an instance: the one that is pushed, else its host, with its port unless that
is zero, else `unknown`. -/
def defaultInstance (instanceName host : String) (port : UInt32) : String :=
  if instanceName ≠ "" then instanceName
  else if port ≠ 0 then host ++ ":" ++ toString port.toNat
  else if host ≠ "" then host
  else "unknown"

/-- The role of an instance: the one that is pushed, else `unknown`. -/
def defaultRole (role : String) : String := if role = "" then "unknown" else role

/-- What is used of a limit, in percent, as it is computed and printed: in exact arithmetic
the quotient, and zero without a limit. -/
structure UsedPercent (p : Platform) (used limit : UInt64) (percent : ℚ) : Prop where
  printed : percent = p.print (usedPercent p used limit)
  exact : p.IsExact →
    percent = if limit = 0 then 0 else 100 * (used.toNat : ℚ) / (limit.toNat : ℚ)

/-- **What the record of a MySQL instance ought to be**: every field that is pushed with the
value that is pushed, floating-point numbers as the stream writes them. -/
structure MysqlDetailRecord.Reports (p : Platform) (host : String) (i : MysqlInfo)
    (r : MysqlDetailRecord) : Prop where
  serverName : r.serverName = host
  instanceName : r.instanceName = defaultInstance i.instanceName i.host i.port
  mysqlHost : r.mysqlHost = i.host
  mysqlPort : r.mysqlPort = i.port.toNat
  up : r.up = i.up
  version : r.version = i.version
  role : r.role = defaultRole i.role
  maxConnections : r.maxConnections = i.maxConnections
  threadsConnected : r.threadsConnected = i.threadsConnected
  threadsRunning : r.threadsRunning = i.threadsRunning
  abortedConnects : r.abortedConnects = i.abortedConnects
  questions : r.questions = i.questions
  comSelect : r.comSelect = i.comSelect
  comInsert : r.comInsert = i.comInsert
  comUpdate : r.comUpdate = i.comUpdate
  comDelete : r.comDelete = i.comDelete
  comCommit : r.comCommit = i.comCommit
  comRollback : r.comRollback = i.comRollback
  slowQueries : r.slowQueries = i.slowQueries
  innodbBufferPoolReadRequests :
    r.innodbBufferPoolReadRequests = i.innodbBufferPoolReadRequests
  innodbBufferPoolReads : r.innodbBufferPoolReads = i.innodbBufferPoolReads
  innodbBufferPoolHitPercent :
    r.innodbBufferPoolHitPercent = p.print i.innodbBufferPoolHitPercent
  innodbRowLockWaits : r.innodbRowLockWaits = i.innodbRowLockWaits
  innodbRowLockTimeAvgMs : r.innodbRowLockTimeAvgMs = p.print i.innodbRowLockTimeAvgMs
  replicationConfigured : r.replicationConfigured = i.replicationConfigured
  replicationRunning : r.replicationRunning = i.replicationRunning
  replicationLagSeconds : r.replicationLagSeconds = p.print i.replicationLagSeconds
  connectionUsedPercent :
    UsedPercent p i.threadsConnected i.maxConnections r.connectionUsedPercent

/-- **What the record of a Redis instance ought to be.** -/
structure RedisDetailRecord.Reports (p : Platform) (host : String) (i : RedisInfo)
    (r : RedisDetailRecord) : Prop where
  serverName : r.serverName = host
  instanceName : r.instanceName = defaultInstance i.instanceName i.host i.port
  redisHost : r.redisHost = i.host
  redisPort : r.redisPort = i.port.toNat
  up : r.up = i.up
  version : r.version = i.version
  role : r.role = defaultRole i.role
  uptimeInSeconds : r.uptimeInSeconds = i.uptimeInSeconds
  connectedClients : r.connectedClients = i.connectedClients
  blockedClients : r.blockedClients = i.blockedClients
  maxclients : r.maxclients = i.maxclients
  connectionUsedPercent :
    UsedPercent p i.connectedClients i.maxclients r.connectionUsedPercent
  usedMemory : r.usedMemory = i.usedMemory
  maxmemory : r.maxmemory = i.maxmemory
  memFragmentationRatio : r.memFragmentationRatio = p.print i.memFragmentationRatio
  memoryUsedPercent : r.memoryUsedPercent = p.print i.memoryUsedPercent
  totalCommandsProcessed : r.totalCommandsProcessed = i.totalCommandsProcessed
  instantaneousOpsPerSec : r.instantaneousOpsPerSec = p.print i.instantaneousOpsPerSec
  keyspaceHits : r.keyspaceHits = i.keyspaceHits
  keyspaceMisses : r.keyspaceMisses = i.keyspaceMisses
  keyspaceHitPercent : r.keyspaceHitPercent = p.print i.keyspaceHitPercent
  expiredKeys : r.expiredKeys = i.expiredKeys
  evictedKeys : r.evictedKeys = i.evictedKeys
  rejectedConnections : r.rejectedConnections = i.rejectedConnections
  totalErrorReplies : r.totalErrorReplies = i.totalErrorReplies
  totalNetInputBytes : r.totalNetInputBytes = i.totalNetInputBytes
  totalNetOutputBytes : r.totalNetOutputBytes = i.totalNetOutputBytes
  replicationConfigured : r.replicationConfigured = i.replicationConfigured
  masterLinkUp : r.masterLinkUp = i.masterLinkUp
  connectedSlaves : r.connectedSlaves = i.connectedSlaves
  masterLastIoSecondsAgo : r.masterLastIoSecondsAgo = p.print i.masterLastIoSecondsAgo
  slowlogLen : r.slowlogLen = i.slowlogLen

/-- The texts and the port of an instance fit into their columns. -/
structure InstanceFits (instanceName host : String) (port : UInt32) (version role : String) :
    Prop where
  instanceName : (defaultInstance instanceName host port).length ≤ 255
  host : host.length ≤ 255
  port : port.toNat < 2 ^ 31
  version : version.length ≤ 128
  role : (defaultRole role).length ≤ 32

/-- A MySQL instance fits into the columns. -/
def MysqlInfo.Fits (i : MysqlInfo) : Prop :=
  InstanceFits i.instanceName i.host i.port i.version i.role

/-- A Redis instance fits into the columns. -/
def RedisInfo.Fits (i : RedisInfo) : Prop :=
  InstanceFits i.instanceName i.host i.port i.version i.role

theorem instanceKey_eq (instanceName host : String) (port : UInt32) :
    instanceKey instanceName host port = defaultInstance instanceName host port := by
  have hport : 0 < port ↔ port ≠ 0 := by
    rw [UInt32.lt_iff_toNat_lt, ne_eq, ← UInt32.toNat_inj]
    exact Nat.pos_iff_ne_zero
  by_cases hname : instanceName = ""
  · by_cases hzero : port = 0
    · by_cases hhost : host = "" <;>
        simp [instanceKey, defaultInstance, hname, hzero, hhost]
    · have hne : host ++ ":" ++ toString port.toNat ≠ "" := by simp
      simp only [instanceKey, defaultInstance, hname, hport, hzero, ne_eq, not_false_eq_true,
        not_true_eq_false, if_true, if_false, if_neg hne]
  · simp [instanceKey, defaultInstance, hname]

theorem usedPercent_printed (p : Platform) (used limit : UInt64) :
    UsedPercent p used limit (p.print (usedPercent p used limit)) := by
  refine ⟨rfl, fun hp => ?_⟩
  rw [usedPercent, hp.print, hp.single]
  split
  · rfl
  · simp only [id]
    ring

/-! ### What is stored and read -/

/-- The columns of `queryMysqlDetailRecords`, in the order in which they are read. -/
def mysqlReadColumns : List String :=
  ["server_name", "instance", "timestamp", "mysql_host", "mysql_port", "up", "version", "role",
    "max_connections", "threads_connected", "threads_running", "aborted_connects", "questions",
    "com_select", "com_insert", "com_update", "com_delete", "com_commit", "com_rollback",
    "slow_queries", "innodb_buffer_pool_read_requests", "innodb_buffer_pool_reads",
    "innodb_buffer_pool_hit_percent", "innodb_row_lock_waits", "innodb_row_lock_time_avg_ms",
    "replication_configured", "replication_running", "replication_lag_seconds",
    "connection_used_percent", "qps", "tps", "slow_queries_rate", "innodb_row_lock_waits_rate"]

/-- The columns of `queryRedisDetailRecords`, in the order in which they are read. -/
def redisReadColumns : List String :=
  ["server_name", "instance", "timestamp", "redis_host", "redis_port", "up", "version", "role",
    "uptime_in_seconds", "connected_clients", "blocked_clients", "maxclients",
    "connection_used_percent", "used_memory", "maxmemory", "mem_fragmentation_ratio",
    "memory_used_percent", "total_commands_processed", "instantaneous_ops_per_sec",
    "commands_per_sec", "keyspace_hits", "keyspace_misses", "keyspace_hit_percent",
    "expired_keys", "evicted_keys", "rejected_connections", "total_error_replies",
    "total_net_input_bytes", "total_net_output_bytes", "net_input_bytes_per_sec",
    "net_output_bytes_per_sec", "replication_configured", "master_link_up",
    "connected_slaves", "master_last_io_seconds_ago", "slowlog_len", "slowlog_growth"]

section Stored

variable {p : Platform} {data : HostMonitoringData}

/-- What a MySQL instance leaves in these columns, with the four rates. -/
def mysqlStored (p : Platform) (data : HostMonitoringData) (i : MysqlInfo)
    (qps tps slow waits : ℚ) : List Value :=
  [.text data.hostName, .text (defaultInstance i.instanceName i.host i.port),
    timestampValue p data, .text i.host, .int i.port.toNat, flag i.up, .text i.version,
    .text (defaultRole i.role), counter i.maxConnections, counter i.threadsConnected,
    counter i.threadsRunning, counter i.abortedConnects, counter i.questions,
    counter i.comSelect, counter i.comInsert, counter i.comUpdate, counter i.comDelete,
    counter i.comCommit, counter i.comRollback, counter i.slowQueries,
    counter i.innodbBufferPoolReadRequests, counter i.innodbBufferPoolReads,
    .num (p.print i.innodbBufferPoolHitPercent), counter i.innodbRowLockWaits,
    .num (p.print i.innodbRowLockTimeAvgMs), flag i.replicationConfigured,
    flag i.replicationRunning, .num (p.print i.replicationLagSeconds),
    .num (p.print (usedPercent p i.threadsConnected i.maxConnections)), .num qps, .num tps,
    .num slow, .num waits]

/-- The columns hold it. -/
theorem stored_mysqlInsert (hdata : data.Fits) {i : MysqlInfo} (hi : i.Fits)
    (prev : MysqlDetailSample) :
    ∃ qps tps slow waits,
      mysqlReadColumns.map (Table.stored .serverMysqlDetail (mysqlInsert p data i prev).row) =
        (mysqlStored p data i qps tps slow waits).map some := by
  obtain ⟨qps, tps, slow, waits, hget⟩ : ∃ qps tps slow waits,
      mysqlReadColumns.map (mysqlInsert p data i prev).row.get =
        mysqlStored p data i qps tps slow waits := by
    simp only [mysqlStored, ← instanceKey_eq, mysqlInsert, detailRow, insertInto, scopeColumns,
      scopeValues, printed, roleValue, List.cons_append, List.nil_append, List.map_cons,
      List.map_nil, List.zip_cons_cons]
    exact ⟨_, _, _, _, rfl⟩
  have htypes : mysqlReadColumns.map (fun c => Table.serverMysqlDetail.columns.lookup c) =
      ([varchar 255, varchar 255, datetime, varchar 255, int, tinyint, varchar 128, varchar 32] ++
        List.replicate 14 bigintUnsigned ++ [float, bigintUnsigned, float, tinyint, tinyint] ++
        List.replicate 6 float).map some := by decide
  refine ⟨qps, tps, slow, waits, (Table.map_stored htypes hget).trans ?_⟩
  simp [mysqlStored, List.replicate_succ, stored_varchar, stored_port hi.port, hdata.hostName,
    hi.instanceName, hi.host, hi.version, hi.role]

theorem port_range {port : UInt32} (h : port.toNat < 2 ^ 31) :
    toInt (port.toNat : ℤ) = port.toNat ∧
      -(2 ^ 63) ≤ (port.toNat : ℤ) ∧ (port.toNat : ℤ) < 2 ^ 63 := by
  refine ⟨?_, by omega, by omega⟩
  rw [toInt, Int.bmod_eq_of_le] <;> omega

/-- What is read from the row of a MySQL instance. -/
theorem mysqlDetailRecord_stored (d : ExactDialect) (clock : Clock) {i : MysqlInfo} (hi : i.Fits)
    (qps tps slow waits : ℚ) :
    ∃ r, mysqlDetailRecord d clock ((mysqlStored p data i qps tps slow waits).map d.fetch) =
        some r ∧
      r.Reports p data.hostName i := by
  obtain ⟨hint, hport⟩ := port_range hi.port
  obtain ⟨row, hrow⟩ : ∃ row, row = (mysqlStored p data i qps tps slow waits).map
      d.fetch := ⟨_, rfl⟩
  rw [← hrow, mysqlDetailRecord, text_fetched hrow 0 rfl, text_fetched hrow 1 rfl,
    text_fetched hrow 3 rfl, toI64_fetched hrow 4 rfl hport, toBool_fetched hrow 5 rfl,
    text_fetched hrow 6 rfl, text_fetched hrow 7 rfl, toU64_fetched hrow 8 rfl,
    toU64_fetched hrow 9 rfl, toU64_fetched hrow 10 rfl, toU64_fetched hrow 11 rfl,
    toU64_fetched hrow 12 rfl, toU64_fetched hrow 13 rfl, toU64_fetched hrow 14 rfl,
    toU64_fetched hrow 15 rfl, toU64_fetched hrow 16 rfl, toU64_fetched hrow 17 rfl,
    toU64_fetched hrow 18 rfl, toU64_fetched hrow 19 rfl, toU64_fetched hrow 20 rfl,
    toU64_fetched hrow 21 rfl, toFloat_fetched hrow 22 rfl, toU64_fetched hrow 23 rfl,
    toFloat_fetched hrow 24 rfl, toBool_fetched hrow 25 rfl, toBool_fetched hrow 26 rfl,
    toFloat_fetched hrow 27 rfl, toFloat_fetched hrow 28 rfl]
  refine ⟨_, rfl, rfl, rfl, rfl, ?_, rfl, rfl, rfl, rfl, rfl, rfl, rfl, rfl, rfl, rfl, rfl, rfl,
    rfl, rfl, rfl, rfl, rfl, rfl, rfl, rfl, rfl, rfl, rfl, usedPercent_printed p _ _⟩
  dsimp only
  exact hint

/-- What a Redis instance leaves in the columns that are read, with the four rates. -/
def redisStored (p : Platform) (data : HostMonitoringData) (i : RedisInfo)
    (commands input output growth : ℚ) : List Value :=
  [.text data.hostName, .text (defaultInstance i.instanceName i.host i.port),
    timestampValue p data, .text i.host, .int i.port.toNat, flag i.up, .text i.version,
    .text (defaultRole i.role), counter i.uptimeInSeconds, counter i.connectedClients,
    counter i.blockedClients, counter i.maxclients,
    .num (p.print (usedPercent p i.connectedClients i.maxclients)), counter i.usedMemory,
    counter i.maxmemory, .num (p.print i.memFragmentationRatio),
    .num (p.print i.memoryUsedPercent), counter i.totalCommandsProcessed,
    .num (p.print i.instantaneousOpsPerSec), .num commands, counter i.keyspaceHits,
    counter i.keyspaceMisses, .num (p.print i.keyspaceHitPercent), counter i.expiredKeys,
    counter i.evictedKeys, counter i.rejectedConnections, counter i.totalErrorReplies,
    counter i.totalNetInputBytes, counter i.totalNetOutputBytes, .num input, .num output,
    flag i.replicationConfigured, flag i.masterLinkUp, counter i.connectedSlaves,
    .num (p.print i.masterLastIoSecondsAgo), counter i.slowlogLen, .num growth]

/-- The columns hold it. -/
theorem stored_redisInsert (hdata : data.Fits) {i : RedisInfo} (hi : i.Fits)
    (prev : RedisDetailSample) :
    ∃ commands input output growth,
      redisReadColumns.map (Table.stored .serverRedisDetail (redisInsert p data i prev).row) =
        (redisStored p data i commands input output growth).map some := by
  obtain ⟨commands, input, output, growth, hget⟩ : ∃ commands input output growth,
      redisReadColumns.map (redisInsert p data i prev).row.get =
        redisStored p data i commands input output growth := by
    simp only [redisStored, ← instanceKey_eq, redisInsert, detailRow, insertInto, scopeColumns,
      scopeValues, printed, roleValue, List.cons_append, List.nil_append, List.map_cons,
      List.map_nil, List.zip_cons_cons]
    exact ⟨_, _, _, _, rfl⟩
  have htypes : redisReadColumns.map (fun c => Table.serverRedisDetail.columns.lookup c) =
      ([varchar 255, varchar 255, datetime, varchar 255, int, tinyint, varchar 128, varchar 32] ++
        List.replicate 4 bigintUnsigned ++ [float, bigintUnsigned, bigintUnsigned, float, float,
          bigintUnsigned, float, float, bigintUnsigned, bigintUnsigned, float] ++
        List.replicate 6 bigintUnsigned ++ [float, float, tinyint, tinyint, bigintUnsigned, float,
          bigintUnsigned, float]).map some := by decide
  refine ⟨commands, input, output, growth, (Table.map_stored htypes hget).trans ?_⟩
  simp [redisStored, List.replicate_succ, stored_varchar, stored_port hi.port, hdata.hostName,
    hi.instanceName, hi.host, hi.version, hi.role]

/-- What is read from the row of a Redis instance. -/
theorem redisDetailRecord_stored (d : ExactDialect) (clock : Clock) {i : RedisInfo} (hi : i.Fits)
    (commands input output growth : ℚ) :
    ∃ r, redisDetailRecord d clock ((redisStored p data i commands input output growth).map
        d.fetch) = some r ∧
      r.Reports p data.hostName i := by
  obtain ⟨hint, hport⟩ := port_range hi.port
  obtain ⟨row, hrow⟩ : ∃ row, row = (redisStored p data i commands input output growth).map
      d.fetch := ⟨_, rfl⟩
  rw [← hrow, redisDetailRecord, text_fetched hrow 0 rfl, text_fetched hrow 1 rfl,
    text_fetched hrow 3 rfl, toI64_fetched hrow 4 rfl hport, toBool_fetched hrow 5 rfl,
    text_fetched hrow 6 rfl, text_fetched hrow 7 rfl, toU64_fetched hrow 8 rfl,
    toU64_fetched hrow 9 rfl, toU64_fetched hrow 10 rfl, toU64_fetched hrow 11 rfl,
    toFloat_fetched hrow 12 rfl, toU64_fetched hrow 13 rfl, toU64_fetched hrow 14 rfl,
    toFloat_fetched hrow 15 rfl, toFloat_fetched hrow 16 rfl, toU64_fetched hrow 17 rfl,
    toFloat_fetched hrow 18 rfl, toU64_fetched hrow 20 rfl, toU64_fetched hrow 21 rfl,
    toFloat_fetched hrow 22 rfl, toU64_fetched hrow 23 rfl, toU64_fetched hrow 24 rfl,
    toU64_fetched hrow 25 rfl, toU64_fetched hrow 26 rfl, toU64_fetched hrow 27 rfl,
    toU64_fetched hrow 28 rfl, toBool_fetched hrow 31 rfl, toBool_fetched hrow 32 rfl,
    toU64_fetched hrow 33 rfl, toFloat_fetched hrow 34 rfl, toU64_fetched hrow 35 rfl]
  refine ⟨_, rfl, rfl, rfl, rfl, ?_, rfl, rfl, rfl, rfl, rfl, rfl, rfl, usedPercent_printed p _ _,
    rfl, rfl, rfl, rfl, rfl, rfl, rfl, rfl, rfl, rfl, rfl, rfl, rfl, rfl, rfl, rfl, rfl, rfl,
    rfl, rfl⟩
  dsimp only
  exact hint

end Stored

/-! ### The round trip -/

/-- **Every instance of a push survives the way into its table and back.** For every push,
whatever was kept of the instances before: once its statements have been executed, the two
queries for its scope, its host and a range with its time, on a page that holds all that is
asked for, hand out the rows of before and exactly one record for each instance, and this
record has every field that was pushed with the value that was pushed. -/
theorem instances_round_trip (d : ExactDialect) (clock : Clock) (before after : Tables)
    (m : QueryManager) (hlease : m.lease = .acquired) (h : HostManager) (l : LastSamples)
    (c : Received) (data : HostMonitoringData)
    (hdata : (h.onDataReceived m.platform c.info c.identity c.row c.now).2 = some data)
    (hfits : data.Fits) (hmysql : ∀ i ∈ c.info.mysqlInfo, i.Fits)
    (hredis : ∀ i ∈ c.info.redisInfo, i.Fits)
    (hmysqlRows : Inserted (writeToMysql m.platform l data).2 .serverMysqlDetail before after)
    (hredisRows : Inserted (writeToMysql m.platform l data).2 .serverRedisDetail before after)
    (cluster : String) (hcluster : cluster = "" ∨ cluster = data.scope.clusterId)
    (range : TimeRange) (hrange : validateTimeRange range = true)
    (hcovers : Covers d.toDialect m.platform range data) (size : ℕ) (hsize : 0 < size)
    (hmysqlAll : (m.wanted d.toDialect after.toDatabase .serverMysqlDetail
      ⟨data.scope.tenantId, data.scope.teamId, cluster⟩ data.hostName range).length ≤ size)
    (hredisAll : (m.wanted d.toDialect after.toDatabase .serverRedisDetail
      ⟨data.scope.tenantId, data.scope.teamId, cluster⟩ data.hostName range).length ≤ size)
    (e : Execution d.toDialect after.rows (m.queryMysqlDetailRecords
      ⟨data.scope.tenantId, data.scope.teamId, cluster⟩ data.hostName range 1 size))
    (e' : Execution d.toDialect after.rows (m.queryRedisDetailRecords
      ⟨data.scope.tenantId, data.scope.teamId, cluster⟩ data.hostName range 1 size)) :
    (∃ (n : ℤ) (texts new : Rows), e.result = .ok (.page n texts) ∧
      texts.Perm ((m.wanted d.toDialect before.toDatabase .serverMysqlDetail
        ⟨data.scope.tenantId, data.scope.teamId, cluster⟩ data.hostName range).map
          (Row.texts d.toDialect mysqlReadColumns) ++ new) ∧
      List.Forall₂ (fun i t => ∃ r, mysqlDetailRecord d clock t = some r ∧
        r.Reports m.platform c.info.hostID i) c.info.mysqlInfo new) ∧
    (∃ (n : ℤ) (texts new : Rows), e'.result = .ok (.page n texts) ∧
      texts.Perm ((m.wanted d.toDialect before.toDatabase .serverRedisDetail
        ⟨data.scope.tenantId, data.scope.teamId, cluster⟩ data.hostName range).map
          (Row.texts d.toDialect redisReadColumns) ++ new) ∧
      List.Forall₂ (fun i t => ∃ r, redisDetailRecord d clock t = some r ∧
        r.Reports m.platform c.info.hostID i) c.info.redisInfo new) := by
  obtain ⟨scope, hscope, -, rfl⟩ := HostManager.exists_scope_of_onDataReceived hdata
  obtain ⟨htenant, hteam, hclusterId⟩ := ne_empty_of_resolveWorkerScope hscope
  obtain ⟨-, hmysqlEntries, hredisEntries⟩ := forall₂_writeToMysql m.platform l
    (monitoringData m.platform c.info scope c.now (h.lastPerfSamples c.info.hostID)) htenant hteam
      hclusterId
  constructor
  · refine hmysqlRows.handed_out hmysqlEntries (fun i hi prev row hstores => ⟨?_, ?_⟩) hlease
      ⟨htenant, hteam⟩ hrange hsize hmysqlAll e
    · exact hstores.asked hfits (by simp [printed]) (by decide) rfl hcluster hcovers
    · obtain ⟨qps, tps, slow, waits, hstored⟩ := stored_mysqlInsert hfits (hmysql i hi) prev
      have htexts := hstores.texts_eq d.toDialect hstored
      exact htexts ▸ mysqlDetailRecord_stored d clock (hmysql i hi) qps tps slow waits
  · refine hredisRows.handed_out hredisEntries (fun i hi prev row hstores => ⟨?_, ?_⟩) hlease
      ⟨htenant, hteam⟩ hrange hsize hredisAll e'
    · exact hstores.asked hfits (by simp [printed]) (by decide) rfl hcluster hcovers
    · obtain ⟨commands, input, output, growth, hstored⟩ :=
        stored_redisInsert hfits (hredis i hi) prev
      have htexts := hstores.texts_eq d.toDialect hstored
      exact htexts ▸ redisDetailRecord_stored d clock (hredis i hi) commands input output growth

/-- A push with a MySQL instance that has no name of its own, and a Redis instance of which
only the host is known. -/
def oneInstanceEach : Received where
  info :=
    { name := "web-01"
      mysqlInfo := [{ host := "db", port := 3306, up := true, maxConnections := 20,
                      threadsConnected := 5 }]
      redisInfo := [{ host := "cache" }] }
  identity := ⟨"worker-1", ""⟩
  row := some ⟨some "acme", some "ops", some "prod", 0, none⟩
  now := 1704067200000000000

/-- Its record. -/
def oneInstanceEachData : HostMonitoringData :=
  monitoringData PagedQuery.newYearManager.platform oneInstanceEach.info
    ⟨"acme", "ops", "prod", 0⟩ oneInstanceEach.now {}

/-- The rows of its two instances. -/
def oneInstanceEachRows : Table → List Row
  | .serverMysqlDetail => oneInstanceEach.info.mysqlInfo.map fun i =>
      Table.serverMysqlDetail.storedRow
        (mysqlInsert PagedQuery.newYearManager.platform oneInstanceEachData i {}).row 1
  | .serverRedisDetail => oneInstanceEach.info.redisInfo.map fun i =>
      Table.serverRedisDetail.storedRow
        (redisInsert PagedQuery.newYearManager.platform oneInstanceEachData i {}).row 1
  | _ => []

theorem declared_oneInstanceEachRows :
    ∀ t, ∀ r ∈ oneInstanceEachRows t, Row.declared r = true := by
  intro t
  cases t <;> decide +kernel

/-- The tables with these rows. -/
def oneInstanceEachTables : Tables :=
  .ofRows oneInstanceEachRows declared_oneInstanceEachRows
    (by intro t; cases t <;> decide +kernel) (by intro t; cases t <;> decide)

/-- Both instances are reported, under the names that they are given. -/
theorem instances_round_trip_oneInstanceEach :
    ∃ (e : Execution ExactDialect.reference.toDialect oneInstanceEachTables.rows
        (PagedQuery.newYearManager.queryMysqlDetailRecords ⟨"acme", "ops", "prod"⟩ "web-01"
          PagedQuery.newYear 1 (1 : ℕ)))
      (e' : Execution ExactDialect.reference.toDialect oneInstanceEachTables.rows
        (PagedQuery.newYearManager.queryRedisDetailRecords ⟨"acme", "ops", "prod"⟩ "web-01"
          PagedQuery.newYear 1 (1 : ℕ))),
      (∃ (n : ℤ) (t : List String) (r : MysqlDetailRecord), e.result = .ok (.page n [t]) ∧
        mysqlDetailRecord ExactDialect.reference PerformanceRecord.newYearClock t = some r ∧
        r.instanceName = "db:3306" ∧ r.role = "unknown" ∧ r.connectionUsedPercent = 25) ∧
      (∃ (n : ℤ) (t : List String) (r : RedisDetailRecord), e'.result = .ok (.page n [t]) ∧
        redisDetailRecord ExactDialect.reference PerformanceRecord.newYearClock t = some r ∧
        r.instanceName = "cache" ∧ r.up = false ∧ r.connectionUsedPercent = 0) := by
  obtain ⟨e⟩ : Nonempty (Execution ExactDialect.reference.toDialect oneInstanceEachTables.rows
      (PagedQuery.newYearManager.queryMysqlDetailRecords ⟨"acme", "ops", "prod"⟩ "web-01"
        PagedQuery.newYear 1 (1 : ℕ))) :=
    PagedQuery.nonempty_execution_first_page _ _ rfl (by decide) (by decide) (by decide)
  obtain ⟨e'⟩ : Nonempty (Execution ExactDialect.reference.toDialect oneInstanceEachTables.rows
      (PagedQuery.newYearManager.queryRedisDetailRecords ⟨"acme", "ops", "prod"⟩ "web-01"
        PagedQuery.newYear 1 (1 : ℕ))) :=
    PagedQuery.nonempty_execution_first_page _ _ rfl (by decide) (by decide) (by decide)
  have hfits : oneInstanceEachData.Fits := ⟨by decide, by decide, by decide, by decide⟩
  have hmysql : ∀ i ∈ oneInstanceEach.info.mysqlInfo, i.Fits := by
    intro i hi
    obtain rfl := List.mem_singleton.mp hi
    exact ⟨by decide +kernel, by decide, by decide, by decide, by decide⟩
  have hredis : ∀ i ∈ oneInstanceEach.info.redisInfo, i.Fits := by
    intro i hi
    obtain rfl := List.mem_singleton.mp hi
    exact ⟨by decide +kernel, by decide, by decide, by decide, by decide⟩
  obtain ⟨⟨n, texts, new, hresult, hperm, hnew⟩, n', texts', new', hresult', hperm', hnew'⟩ :=
    instances_round_trip ExactDialect.reference PerformanceRecord.newYearClock .empty
      oneInstanceEachTables PagedQuery.newYearManager rfl .init .init oneInstanceEach
      oneInstanceEachData rfl hfits hmysql hredis
      ⟨_, .refl _, .cons (stores_storedRow _ _ _) .nil⟩
      ⟨_, .refl _, .cons (stores_storedRow _ _ _) .nil⟩ "prod" (.inr rfl) PagedQuery.newYear
      (by decide) (by decide) 1 (by decide) (List.length_filter_le _ _)
      (List.length_filter_le _ _) e e'
  have hexact := PerformanceRecord.isExact_newYear
  refine ⟨e, e', ?_, ?_⟩
  · obtain ⟨t, u, ⟨r, hr, hreports⟩, hnone, rfl⟩ := List.forall₂_cons_left_iff.mp hnew
    obtain rfl := List.forall₂_nil_left_iff.mp hnone
    obtain rfl := List.perm_singleton.mp hperm
    refine ⟨n, t, r, hresult, hr, hreports.instanceName.trans (by decide), hreports.role, ?_⟩
    rw [hreports.connectionUsedPercent.exact hexact]
    decide +kernel
  · obtain ⟨t, u, ⟨r, hr, hreports⟩, hnone, rfl⟩ := List.forall₂_cons_left_iff.mp hnew'
    obtain rfl := List.forall₂_nil_left_iff.mp hnone
    obtain rfl := List.perm_singleton.mp hperm'
    refine ⟨n', t, r, hresult', hr, hreports.instanceName.trans (by decide), hreports.up, ?_⟩
    rw [hreports.connectionUsedPercent.exact hexact]
    decide +kernel

end MonitorSystem
