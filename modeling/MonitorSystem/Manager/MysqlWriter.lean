import MonitorSystem.Library.Keyed
import MonitorSystem.Library.Sql
import MonitorSystem.Manager.HostManager

/-!
# Writing a sample

`HostManager::writeToMysql` (`manager/src/HostManager.cpp`) turns one record of the
write queue into INSERT statements: one for the host's performance row and one for
each interface, CPU, disk and database instance it reports, and one for its memory.
Most of them carry change rates, which are computed against the previous sample of
the same name on the same host; the maps of these samples are the state of this file.

All detail tables are written by the same loop, `MysqlWriter.writeDetails`: look up the
last sample under the entry's name, insert a row, store the current sample. What
differs is the sample and the row.
-/

namespace MonitorSystem

open Sql

/-- The tables of the monitoring database. -/
inductive Table where
  | serverPerformance
  | serverNetDetail
  | serverSoftirqDetail
  | serverMemDetail
  | serverDiskDetail
  | serverMysqlDetail
  | serverRedisDetail
  deriving DecidableEq, Repr

/-- An INSERT statement of one row. -/
structure Insert where
  table : Table
  row : Row
  deriving DecidableEq, Repr

namespace MysqlWriter

/-! ### The previous samples -/

/-- `NetDetailedSample`. -/
structure NetDetailedSample where
  netRecvBytesRate : ℚ := 0
  netRecvPacketsRate : ℚ := 0
  netSendBytesRate : ℚ := 0
  netSendPacketsRate : ℚ := 0
  errIn : UInt64 := 0
  errOut : UInt64 := 0
  dropIn : UInt64 := 0
  dropOut : UInt64 := 0
  deriving DecidableEq, Repr, Inhabited

/-- `SoftIrqSample`, `MemDetailSample` and `DiskDetailSample` only hold numbers that are
stored and compared one by one, so they are their list of fields, in the order of the
table's columns; a missing field is zero. -/
abbrev Fields := List ℚ

/-- `MysqlDetailSample`; the default is an uninitialised one. -/
structure MysqlDetailSample where
  questions : UInt64 := 0
  comCommit : UInt64 := 0
  comRollback : UInt64 := 0
  slowQueries : UInt64 := 0
  innodbRowLockWaits : UInt64 := 0
  timestamp : ℤ := 0
  initialized : Bool := false
  deriving DecidableEq, Repr, Inhabited

/-- `RedisDetailSample`; the default is an uninitialised one. -/
structure RedisDetailSample where
  totalCommandsProcessed : UInt64 := 0
  totalNetInputBytes : UInt64 := 0
  totalNetOutputBytes : UInt64 := 0
  slowlogLen : UInt64 := 0
  timestamp : ℤ := 0
  initialized : Bool := false
  deriving DecidableEq, Repr, Inhabited

/-- The process-wide maps of `writeToMysql`, all of them by host name first. -/
structure LastSamples where
  lastDiskUtil : String → Option ℚ
  lastNetSamples : String → String → NetDetailedSample
  lastSoftirqSamples : String → String → Fields
  lastMemSamples : String → Fields
  lastDiskSamples : String → String → Fields
  lastMysqlSamples : String → String → MysqlDetailSample
  lastRedisSamples : String → String → RedisDetailSample

/-- The maps when the process starts. -/
def LastSamples.init : LastSamples where
  lastDiskUtil _ := none
  lastNetSamples _ _ := {}
  lastSoftirqSamples _ _ := []
  lastMemSamples _ := []
  lastDiskSamples _ _ := []
  lastMysqlSamples _ _ := {}
  lastRedisSamples _ _ := {}

/-! ### Rates -/

section Rates

variable (p : Platform)

/-- `rate`, field by field. -/
def rates (curr last : Fields) : List ℚ :=
  curr.zipWith p.rate (last ++ List.replicate curr.length 0)

/-- `rateU64`: the relative change of a counter; the difference wraps around. -/
def rateU64 (nowVal lastVal : UInt64) : ℚ :=
  if lastVal = 0 then 0
  else p.single (p.single ((nowVal - lastVal).toNat : ℚ) / p.single (lastVal.toNat : ℚ))

/-- `counterRate`: the growth of a counter per second, zero where it has not grown. -/
def counterRate (nowVal lastVal : UInt64) (seconds : ℚ) : ℚ :=
  if seconds ≤ 0 ∨ nowVal < lastVal then 0
  else p.single (p.ddiv (p.double ((nowVal - lastVal).toNat : ℚ)) seconds)

/-- `counterDelta`: the growth of a counter, zero where it has not grown. -/
def counterDelta (nowVal lastVal : UInt64) : ℚ :=
  if nowVal < lastVal then 0 else p.single ((nowVal - lastVal).toNat : ℚ)

/-- The seconds between two times in nanoseconds, as a `double`. -/
def secondsBetween (curr last : ℤ) : ℚ := p.double ((curr - last : ℚ) / 1000000000)

/-- The share of a limit that is used, in percent; zero without a limit. -/
def usedPercent (used limit : UInt64) : ℚ :=
  if limit = 0 then 0
  else p.single (p.single (p.single (used.toNat : ℚ) / p.single (limit.toNat : ℚ)) * 100)

end Rates

/-! ### Rows -/

/-- An INSERT with a column list and a value list. -/
def insertInto (table : Table) (columns : List String) (values : List Value) : Insert :=
  ⟨table, columns.zip values⟩

/-- The columns every table starts with. -/
def scopeColumns : List String :=
  ["tenant_id", "team_id", "cluster_id", "server_id", "server_name"]

/-- Their values; a server id of zero is inserted as `NULL`. -/
def scopeValues (data : HostMonitoringData) : List Value :=
  [.text data.scope.tenantId, .text data.scope.teamId, .text data.scope.clusterId,
    if data.scope.serverId = 0 then .null else .int data.scope.serverId.toNat,
    .text data.hostName]

/-- The timestamp of a row: the local time, in seconds. -/
def timestampValue (p : Platform) (data : HostMonitoringData) : Value :=
  .text (p.localTime (data.hostScore.timestamp / 1000000000))

/-- A counter as a value. -/
def counter (n : UInt64) : Value := .int n.toNat

/-- A flag as a value. -/
def flag (b : Bool) : Value := .int (if b then 1 else 0)

/-- Floating-point values as a stream writes them. -/
def printed (p : Platform) (qs : List ℚ) : List Value := qs.map fun q => .num (p.print q)

/-- A row of a detail table: the scope, what the table adds, and the timestamp. -/
def detailRow (p : Platform) (data : HostMonitoringData) (table : Table)
    (columns : List String) (values : List Value) : Insert :=
  insertInto table (scopeColumns ++ columns ++ ["timestamp"])
    (scopeValues data ++ values ++ [timestampValue p data])

/-- The greatest disk utilisation, read as `float`s. -/
def diskUtilPercent (p : Platform) (info : MonitorInfo) : ℚ :=
  maxUtil (info.diskInfo.map fun d => p.single d.utilPercent)

/-- The change of the disk utilisation against the last one, if there was one. -/
def diskUtilPercentRate (p : Platform) (info : MonitorInfo) (last : Option ℚ) : ℚ :=
  match last with
  | some util => p.rate (diskUtilPercent p info) util
  | none => 0

/-- The row of `server_performance`. The change rates of the received and of the sent
bytes are inserted under `send_rate_rate` and `rcv_rate_rate`, in this order. -/
def performanceInsert (p : Platform) (data : HostMonitoringData) (lastUtil : Option ℚ) :
    Insert :=
  let info := data.hostScore.info
  let cpu := info.selectAggregateCpuStat.getD {}
  let load := info.cpuLoad.getD {}
  let mem := info.memInfo.getD {}
  let net := info.netInfo.head?.getD {}
  detailRow p data .serverPerformance
    ["cpu_percent", "usr_percent", "system_percent", "nice_percent", "idle_percent",
      "io_wait_percent", "irq_percent", "soft_irq_percent", "load_avg_1", "load_avg_3",
      "load_avg_15", "mem_used_percent", "total", "free", "avail", "disk_util_percent",
      "send_rate", "rcv_rate", "score", "cpu_percent_rate", "usr_percent_rate",
      "system_percent_rate", "nice_percent_rate", "idle_percent_rate", "io_wait_percent_rate",
      "irq_percent_rate", "soft_irq_percent_rate", "load_avg_1_rate", "load_avg_3_rate",
      "load_avg_15_rate", "mem_used_percent_rate", "total_rate", "free_rate", "avail_rate",
      "disk_util_percent_rate", "send_rate_rate", "rcv_rate_rate"]
    (printed p
      [cpu.cpuPercent, cpu.usrPercent, cpu.systemPercent, cpu.nicePercent, cpu.idlePercent,
        cpu.ioWaitPercent, cpu.irqPercent, cpu.softIrqPercent, load.loadAvg1, load.loadAvg3,
        load.loadAvg15, mem.usedPercent, mem.total, mem.free, mem.avail,
        diskUtilPercent p info, net.sendRate, net.rcvRate, data.hostScore.score,
        data.cpuPercentRate, data.usrPercentRate, data.systemPercentRate,
        data.nicePercentRate, data.idlePercentRate, data.ioWaitPercentRate,
        data.irqPercentRate, data.softIrqPercentRate, data.loadAvg1Rate, data.loadAvg3Rate,
        data.loadAvg15Rate, data.memUsedPercentRate, data.memTotalRate, data.memFreeRate,
        data.memAvailRate, diskUtilPercentRate p info lastUtil, data.netInRateRate,
        data.netOutRateRate])

/-- The sample of an interface. -/
def netSample (net : NetInfo) : NetDetailedSample where
  netRecvBytesRate := net.rcvRate
  netRecvPacketsRate := net.rcvPacketsRate
  netSendBytesRate := net.sendRate
  netSendPacketsRate := net.sendPacketsRate
  errIn := net.errIn
  errOut := net.errOut
  dropIn := net.dropIn
  dropOut := net.dropOut

/-- The row of an interface in `server_net_detail`. -/
def netInsert (p : Platform) (data : HostMonitoringData) (net : NetInfo)
    (last : NetDetailedSample) : Insert :=
  let curr := netSample net
  detailRow p data .serverNetDetail
    ["net_name", "err_in", "err_out", "drop_in", "drop_out", "rcv_bytes_rate",
      "rcv_packets_rate", "snd_bytes_rate", "snd_packets_rate", "rcv_bytes_rate_rate",
      "rcv_packets_rate_rate", "snd_bytes_rate_rate", "snd_packets_rate_rate", "err_in_rate",
      "err_out_rate", "drop_in_rate", "drop_out_rate"]
    ([.text net.name, counter curr.errIn, counter curr.errOut, counter curr.dropIn,
      counter curr.dropOut] ++
    printed p
      [curr.netRecvBytesRate, curr.netRecvPacketsRate, curr.netSendBytesRate,
        curr.netSendPacketsRate, p.rate curr.netRecvBytesRate last.netRecvBytesRate,
        p.rate curr.netRecvPacketsRate last.netRecvPacketsRate,
        p.rate curr.netSendBytesRate last.netSendBytesRate,
        p.rate curr.netSendPacketsRate last.netSendPacketsRate, rateU64 p curr.errIn last.errIn,
        rateU64 p curr.errOut last.errOut, rateU64 p curr.dropIn last.dropIn,
        rateU64 p curr.dropOut last.dropOut])

/-- The sample of a CPU's soft interrupts. -/
def softIrqSample (s : SoftIrq) : Fields :=
  [s.hi, s.timer, s.netTx, s.netRx, s.block, s.irqPoll, s.tasklet, s.sched, s.hrtimer, s.rcu]

/-- The row of a CPU in `server_softirq_detail`. -/
def softIrqInsert (p : Platform) (data : HostMonitoringData) (s : SoftIrq) (last : Fields) :
    Insert :=
  detailRow p data .serverSoftirqDetail
    ["cpu_name", "hi", "timer", "net_tx", "net_rx", "block", "irq_poll", "tasklet", "sched",
      "hrtimer", "rcu", "hi_rate", "timer_rate", "net_tx_rate", "net_rx_rate", "block_rate",
      "irq_poll_rate", "tasklet_rate", "sched_rate", "hrtimer_rate", "rcu_rate"]
    (.text s.cpu :: printed p (softIrqSample s ++ rates p (softIrqSample s) last))

/-- The sample of the memory. -/
def memSample (m : MemInfo) : Fields :=
  [m.total, m.free, m.avail, m.buffers, m.cached, m.swapCached, m.active, m.inactive,
    m.activeAnon, m.inactiveAnon, m.activeFile, m.inactiveFile, m.dirty, m.writeback,
    m.anonPages, m.mapped, m.kreclaimable, m.sreclaimable, m.sunreclaim]

/-- The row of the memory in `server_mem_detail`. -/
def memInsert (p : Platform) (data : HostMonitoringData) (m : MemInfo) (last : Fields) :
    Insert :=
  detailRow p data .serverMemDetail
    ["total", "free", "avail", "buffers", "cached", "swap_cached", "active", "inactive",
      "active_anon", "inactive_anon", "active_file", "inactive_file", "dirty", "writeback",
      "anon_pages", "mapped", "kreclaimable", "sreclaimable", "sunreclaim", "total_rate",
      "free_rate", "avail_rate", "buffers_rate", "cached_rate", "swap_cached_rate",
      "active_rate", "inactive_rate", "active_anon_rate", "inactive_anon_rate",
      "active_file_rate", "inactive_file_rate", "dirty_rate", "writeback_rate",
      "anon_pages_rate", "mapped_rate", "kreclaimable_rate", "sreclaimable_rate",
      "sunreclaim_rate"]
    (printed p (memSample m ++ rates p (memSample m) last))

/-- The sample of a disk: its `double`s as `float`s. -/
def diskSample (p : Platform) (d : DiskInfo) : Fields :=
  [d.readBytesPerSec, d.writeBytesPerSec, d.readIops, d.writeIops, d.avgReadLatencyMs,
    d.avgWriteLatencyMs, d.utilPercent].map p.single

/-- The row of a disk in `server_disk_detail`. -/
def diskInsert (p : Platform) (data : HostMonitoringData) (d : DiskInfo) (last : Fields) :
    Insert :=
  detailRow p data .serverDiskDetail
    ["disk_name", "read_ops", "write_ops", "sectors_read", "sectors_written", "read_time_ms",
      "write_time_ms", "io_in_progress", "io_time_ms", "weighted_io_time_ms",
      "read_bytes_per_sec", "write_bytes_per_sec", "read_iops", "write_iops",
      "avg_read_latency_ms", "avg_write_latency_ms", "util_percent",
      "read_bytes_per_sec_rate", "write_bytes_per_sec_rate", "read_iops_rate",
      "write_iops_rate", "avg_read_latency_ms_rate", "avg_write_latency_ms_rate",
      "util_percent_rate"]
    ([.text d.name, counter d.reads, counter d.writes, counter d.sectorsRead,
      counter d.sectorsWritten, counter d.readTimeMs, counter d.writeTimeMs,
      counter d.ioInProgress, counter d.ioTimeMs, counter d.weightedIoTimeMs] ++
    printed p (diskSample p d ++ rates p (diskSample p d) last))

/-- The name of a database instance: the one reported, else its address, else
`unknown`. -/
def instanceKey (instanceName host : String) (port : UInt32) : String :=
  let named :=
    if instanceName = "" then
      if 0 < port then host ++ ":" ++ toString port.toNat else host
    else instanceName
  if named = "" then "unknown" else named

/-- The role of a database instance, `unknown` if none is reported. -/
def roleValue (role : String) : Value := .text (if role = "" then "unknown" else role)

/-- The sample of a MySQL instance. -/
def mysqlSample (data : HostMonitoringData) (m : MysqlInfo) : MysqlDetailSample where
  questions := m.questions
  comCommit := m.comCommit
  comRollback := m.comRollback
  slowQueries := m.slowQueries
  innodbRowLockWaits := m.innodbRowLockWaits
  timestamp := data.hostScore.timestamp
  initialized := true

/-- The row of an instance in `server_mysql_detail`. -/
def mysqlInsert (p : Platform) (data : HostMonitoringData) (m : MysqlInfo)
    (last : MysqlDetailSample) : Insert :=
  let curr := mysqlSample data m
  let seconds := if last.initialized then secondsBetween p curr.timestamp last.timestamp else 0
  let perSecond (now before : UInt64) :=
    if last.initialized then counterRate p now before seconds else 0
  detailRow p data .serverMysqlDetail
    ["instance", "mysql_host", "mysql_port", "up", "version", "role", "max_connections",
      "threads_connected", "threads_running", "aborted_connects", "questions", "com_select",
      "com_insert", "com_update", "com_delete", "com_commit", "com_rollback", "slow_queries",
      "innodb_buffer_pool_read_requests", "innodb_buffer_pool_reads",
      "innodb_buffer_pool_hit_percent", "innodb_row_lock_waits",
      "innodb_row_lock_time_avg_ms", "replication_configured", "replication_running",
      "replication_lag_seconds", "connection_used_percent", "qps", "tps",
      "slow_queries_rate", "innodb_row_lock_waits_rate"]
    ([.text (instanceKey m.instanceName m.host m.port), .text m.host, .int m.port.toNat,
      flag m.up, .text m.version, roleValue m.role, counter m.maxConnections,
      counter m.threadsConnected, counter m.threadsRunning, counter m.abortedConnects,
      counter m.questions, counter m.comSelect, counter m.comInsert, counter m.comUpdate,
      counter m.comDelete, counter m.comCommit, counter m.comRollback, counter m.slowQueries,
      counter m.innodbBufferPoolReadRequests, counter m.innodbBufferPoolReads] ++
    printed p [m.innodbBufferPoolHitPercent] ++ [counter m.innodbRowLockWaits] ++
    printed p [m.innodbRowLockTimeAvgMs] ++
    [flag m.replicationConfigured, flag m.replicationRunning] ++
    printed p
      [m.replicationLagSeconds, usedPercent p m.threadsConnected m.maxConnections,
        perSecond curr.questions last.questions,
        perSecond (curr.comCommit + curr.comRollback) (last.comCommit + last.comRollback),
        perSecond curr.slowQueries last.slowQueries,
        perSecond curr.innodbRowLockWaits last.innodbRowLockWaits])

/-- The sample of a Redis instance. -/
def redisSample (data : HostMonitoringData) (r : RedisInfo) : RedisDetailSample where
  totalCommandsProcessed := r.totalCommandsProcessed
  totalNetInputBytes := r.totalNetInputBytes
  totalNetOutputBytes := r.totalNetOutputBytes
  slowlogLen := r.slowlogLen
  timestamp := data.hostScore.timestamp
  initialized := true

/-- The row of an instance in `server_redis_detail`. -/
def redisInsert (p : Platform) (data : HostMonitoringData) (r : RedisInfo)
    (last : RedisDetailSample) : Insert :=
  let curr := redisSample data r
  let seconds := if last.initialized then secondsBetween p curr.timestamp last.timestamp else 0
  let perSecond (now before : UInt64) :=
    if last.initialized then counterRate p now before seconds else 0
  detailRow p data .serverRedisDetail
    ["instance", "redis_host", "redis_port", "up", "version", "role", "uptime_in_seconds",
      "connected_clients", "blocked_clients", "maxclients", "connection_used_percent",
      "used_memory", "maxmemory", "mem_fragmentation_ratio", "memory_used_percent",
      "total_commands_processed", "instantaneous_ops_per_sec", "commands_per_sec",
      "keyspace_hits", "keyspace_misses", "keyspace_hit_percent", "expired_keys",
      "evicted_keys", "rejected_connections", "total_error_replies", "total_net_input_bytes",
      "total_net_output_bytes", "net_input_bytes_per_sec", "net_output_bytes_per_sec",
      "replication_configured", "master_link_up", "connected_slaves",
      "master_last_io_seconds_ago", "slowlog_len", "slowlog_growth"]
    ([.text (instanceKey r.instanceName r.host r.port), .text r.host, .int r.port.toNat,
      flag r.up, .text r.version, roleValue r.role, counter r.uptimeInSeconds,
      counter r.connectedClients, counter r.blockedClients, counter r.maxclients] ++
    printed p [usedPercent p r.connectedClients r.maxclients] ++
    [counter r.usedMemory, counter r.maxmemory] ++
    printed p [r.memFragmentationRatio, r.memoryUsedPercent] ++
    [counter r.totalCommandsProcessed] ++
    printed p [r.instantaneousOpsPerSec,
      perSecond curr.totalCommandsProcessed last.totalCommandsProcessed] ++
    [counter r.keyspaceHits, counter r.keyspaceMisses] ++ printed p [r.keyspaceHitPercent] ++
    [counter r.expiredKeys, counter r.evictedKeys, counter r.rejectedConnections,
      counter r.totalErrorReplies, counter r.totalNetInputBytes, counter r.totalNetOutputBytes] ++
    printed p
      [perSecond curr.totalNetInputBytes last.totalNetInputBytes,
        perSecond curr.totalNetOutputBytes last.totalNetOutputBytes] ++
    [flag r.replicationConfigured, flag r.masterLinkUp, counter r.connectedSlaves] ++
    printed p [r.masterLastIoSecondsAgo] ++ [counter r.slowlogLen] ++
    printed p
      [if last.initialized then counterDelta p curr.slowlogLen last.slowlogLen else 0])

/-! ### Writing -/

/-- The loop of a detail table over the entries of one host: each entry's row is computed
against the last sample of its name, and its own sample takes that place. -/
def writeDetails {α τ : Type} (key : α → String) (sample : α → τ) (insert : α → τ → Insert)
    (last : String → τ) : List α → (String → τ) × List Insert
  | [] => (last, [])
  | e :: es =>
    let rest := writeDetails key sample insert (Function.update last (key e) (sample e)) es
    (rest.1, insert e (last (key e)) :: rest.2)

/-- **`writeToMysql`**, once it has a connection: the new maps and the statements. A
record without a scope is dropped. -/
def writeToMysql (p : Platform) (l : LastSamples) (data : HostMonitoringData) :
    LastSamples × List Insert :=
  if data.scope.tenantId = "" ∨ data.scope.teamId = "" ∨ data.scope.clusterId = "" then (l, [])
  else
    let host := data.hostName
    let info := data.hostScore.info
    let net := writeDetails (·.name) netSample (netInsert p data) (l.lastNetSamples host)
      info.netInfo
    let softirq := writeDetails (·.cpu) softIrqSample (softIrqInsert p data)
      (l.lastSoftirqSamples host) info.softIrq
    let disk := writeDetails (·.name) (diskSample p) (diskInsert p data)
      (l.lastDiskSamples host) info.diskInfo
    let mysql := writeDetails (fun m => instanceKey m.instanceName m.host m.port)
      (mysqlSample data) (mysqlInsert p data) (l.lastMysqlSamples host) info.mysqlInfo
    let redis := writeDetails (fun r => instanceKey r.instanceName r.host r.port)
      (redisSample data) (redisInsert p data) (l.lastRedisSamples host) info.redisInfo
    ({ lastDiskUtil := Function.update l.lastDiskUtil host (some (diskUtilPercent p info))
       lastNetSamples := Function.update l.lastNetSamples host net.1
       lastSoftirqSamples := Function.update l.lastSoftirqSamples host softirq.1
       lastMemSamples :=
         match info.memInfo with
         | some m => Function.update l.lastMemSamples host (memSample m)
         | none => l.lastMemSamples
       lastDiskSamples := Function.update l.lastDiskSamples host disk.1
       lastMysqlSamples := Function.update l.lastMysqlSamples host mysql.1
       lastRedisSamples := Function.update l.lastRedisSamples host redis.1 },
      performanceInsert p data (l.lastDiskUtil host) :: net.2 ++ softirq.2 ++
        (info.memInfo.map fun m => memInsert p data m (l.lastMemSamples host)).toList ++
        disk.2 ++ mysql.2 ++ redis.2)

/-! ### One host at a time -/

/-- What the maps hold for one host. -/
structure HostSamples where
  diskUtil : Option ℚ
  net : String → NetDetailedSample
  softirq : String → Fields
  mem : Fields
  disk : String → Fields
  mysql : String → MysqlDetailSample
  redis : String → RedisDetailSample

/-- What the maps hold for `host`. -/
def LastSamples.forHost (l : LastSamples) (host : String) : HostSamples where
  diskUtil := l.lastDiskUtil host
  net := l.lastNetSamples host
  softirq := l.lastSoftirqSamples host
  mem := l.lastMemSamples host
  disk := l.lastDiskSamples host
  mysql := l.lastMysqlSamples host
  redis := l.lastRedisSamples host

/-- Maps that hold the same for every host. -/
def HostSamples.everywhere (h : HostSamples) : LastSamples where
  lastDiskUtil _ := h.diskUtil
  lastNetSamples _ := h.net
  lastSoftirqSamples _ := h.softirq
  lastMemSamples _ := h.mem
  lastDiskSamples _ := h.disk
  lastMysqlSamples _ := h.mysql
  lastRedisSamples _ := h.redis

/-- Writing a record, as seen by its host. -/
def writeHost (p : Platform) (h : HostSamples) (data : HostMonitoringData) :
    HostSamples × List Insert :=
  let r := writeToMysql p h.everywhere data
  (r.1.forHost data.hostName, r.2)

/-- **`writeToMysql` keeps its state by host**: it reads and writes the samples of the
record's own host only. -/
theorem writeToMysql_eq_keyed (p : Platform) (l : LastSamples) (data : HostMonitoringData) :
    (((writeToMysql p l data).1.forHost, (writeToMysql p l data).2) :
      (String → HostSamples) × List Insert) =
      Keyed.step HostMonitoringData.hostName (writeHost p) l.forHost data := by
  by_cases hscope : data.scope.tenantId = "" ∨ data.scope.teamId = "" ∨ data.scope.clusterId = ""
  · simp only [writeToMysql, writeHost, Keyed.step, if_pos hscope, Prod.mk.injEq, and_true]
    exact (Function.update_eq_self data.hostName l.forHost).symm
  · -- every map is updated at the record's host, the memory's only if it is reported
    refine Prod.ext (funext fun host => ?_) ?_
    · by_cases hhost : host = data.hostName
      · subst hhost
        cases hmem : data.hostScore.info.memInfo <;>
          simp [Keyed.step, writeHost, writeToMysql, hscope, hmem, LastSamples.forHost,
            HostSamples.everywhere]
      · cases hmem : data.hostScore.info.memInfo <;>
          simp [Keyed.step, writeToMysql, hscope, hmem, LastSamples.forHost, hhost]
    · simp only [Keyed.step, writeHost, writeToMysql, if_neg hscope, LastSamples.forHost,
        HostSamples.everywhere]

/-- One call of `writeToMysql` after another: each record with its statements. -/
def writeAll (p : Platform) (l : LastSamples) :
    List HostMonitoringData → List (HostMonitoringData × List Insert)
  | [] => []
  | data :: rest => (data, (writeToMysql p l data).2) :: writeAll p (writeToMysql p l data).1 rest

theorem writeAll_eq_keyed (p : Platform) (l : LastSamples) (ds : List HostMonitoringData) :
    writeAll p l ds = (Keyed.run HostMonitoringData.hostName (writeHost p) l.forHost ds).2 := by
  induction ds generalizing l with
  | nil => rfl
  | cons data ds ih =>
    have hstep := writeToMysql_eq_keyed p l data
    rw [writeAll, ih, Keyed.run, ← hstep]

/-- **The rows of a host are those of its records alone.** -/
theorem writeAll_filter (p : Platform) (l : LastSamples) (ds : List HostMonitoringData)
    (host : String) :
    (writeAll p l ds).filter (fun w => w.1.hostName = host) =
      writeAll p l (ds.filter fun d => d.hostName = host) := by
  rw [writeAll_eq_keyed, writeAll_eq_keyed]
  exact (Keyed.run_filter (fun h => decide (h = host)) l.forHost ds).1

end MysqlWriter

end MonitorSystem
