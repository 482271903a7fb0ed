import Mathlib.Data.Rat.Defs

/-!
# The monitoring message

The protobuf message a worker pushes, as the manager reads it
(`proto/monitor_info.proto` and the files it imports), and the worker's identity
(`manager/include/WorkerIdentity.h`).

Scalars keep the width of the wire type: a `uint64` counter is a `UInt64`, so that
a difference of two counters wraps as it does in the source. `float` and `double`
fields are read as the rational number they hold. A missing scalar has its
protobuf default, and a message field that may be absent is an `Option`.
-/

namespace MonitorSystem

/-- `HostInfo`: how the host names itself. -/
structure HostInfo where
  hostname : String := ""
  ipAddress : String := ""
  deriving DecidableEq, Repr, Inhabited

/-- `SoftIrq`: the soft interrupt counts of one CPU. -/
structure SoftIrq where
  cpu : String := ""
  hi : ℚ := 0
  timer : ℚ := 0
  netTx : ℚ := 0
  netRx : ℚ := 0
  block : ℚ := 0
  irqPoll : ℚ := 0
  tasklet : ℚ := 0
  sched : ℚ := 0
  hrtimer : ℚ := 0
  rcu : ℚ := 0
  deriving DecidableEq, Repr, Inhabited

/-- `CpuLoad`: the three load averages. -/
structure CpuLoad where
  loadAvg1 : ℚ := 0
  loadAvg3 : ℚ := 0
  loadAvg15 : ℚ := 0
  deriving DecidableEq, Repr, Inhabited

/-- `CpuStat`: the time percentages of one CPU, or of all of them. -/
structure CpuStat where
  cpuName : String := ""
  cpuPercent : ℚ := 0
  usrPercent : ℚ := 0
  systemPercent : ℚ := 0
  nicePercent : ℚ := 0
  idlePercent : ℚ := 0
  ioWaitPercent : ℚ := 0
  irqPercent : ℚ := 0
  softIrqPercent : ℚ := 0
  deriving DecidableEq, Repr, Inhabited

/-- `MemInfo`: the memory of the host. -/
structure MemInfo where
  total : ℚ := 0
  free : ℚ := 0
  avail : ℚ := 0
  buffers : ℚ := 0
  cached : ℚ := 0
  swapCached : ℚ := 0
  active : ℚ := 0
  inactive : ℚ := 0
  activeAnon : ℚ := 0
  inactiveAnon : ℚ := 0
  activeFile : ℚ := 0
  inactiveFile : ℚ := 0
  dirty : ℚ := 0
  writeback : ℚ := 0
  anonPages : ℚ := 0
  mapped : ℚ := 0
  kreclaimable : ℚ := 0
  sreclaimable : ℚ := 0
  sunreclaim : ℚ := 0
  usedPercent : ℚ := 0
  deriving DecidableEq, Repr, Inhabited

/-- `NetInfo`: one network interface. -/
structure NetInfo where
  name : String := ""
  sendRate : ℚ := 0
  rcvRate : ℚ := 0
  sendPacketsRate : ℚ := 0
  rcvPacketsRate : ℚ := 0
  errIn : UInt64 := 0
  errOut : UInt64 := 0
  dropIn : UInt64 := 0
  dropOut : UInt64 := 0
  deriving DecidableEq, Repr, Inhabited

/-- `DiskInfo`: one block device. -/
structure DiskInfo where
  name : String := ""
  reads : UInt64 := 0
  writes : UInt64 := 0
  sectorsRead : UInt64 := 0
  sectorsWritten : UInt64 := 0
  readTimeMs : UInt64 := 0
  writeTimeMs : UInt64 := 0
  ioInProgress : UInt64 := 0
  ioTimeMs : UInt64 := 0
  weightedIoTimeMs : UInt64 := 0
  readBytesPerSec : ℚ := 0
  writeBytesPerSec : ℚ := 0
  readIops : ℚ := 0
  writeIops : ℚ := 0
  avgReadLatencyMs : ℚ := 0
  avgWriteLatencyMs : ℚ := 0
  utilPercent : ℚ := 0
  deriving DecidableEq, Repr, Inhabited

/-- `MysqlInfo`: one MySQL instance seen by the worker. -/
structure MysqlInfo where
  instanceName : String := ""
  host : String := ""
  port : UInt32 := 0
  up : Bool := false
  version : String := ""
  role : String := ""
  maxConnections : UInt64 := 0
  threadsConnected : UInt64 := 0
  threadsRunning : UInt64 := 0
  abortedConnects : UInt64 := 0
  questions : UInt64 := 0
  comSelect : UInt64 := 0
  comInsert : UInt64 := 0
  comUpdate : UInt64 := 0
  comDelete : UInt64 := 0
  comCommit : UInt64 := 0
  comRollback : UInt64 := 0
  slowQueries : UInt64 := 0
  innodbBufferPoolReadRequests : UInt64 := 0
  innodbBufferPoolReads : UInt64 := 0
  innodbBufferPoolHitPercent : ℚ := 0
  innodbRowLockWaits : UInt64 := 0
  innodbRowLockTimeAvgMs : ℚ := 0
  replicationConfigured : Bool := false
  replicationRunning : Bool := false
  replicationLagSeconds : ℚ := 0
  deriving DecidableEq, Repr, Inhabited

/-- `RedisInfo`: one Redis instance seen by the worker. -/
structure RedisInfo where
  instanceName : String := ""
  host : String := ""
  port : UInt32 := 0
  up : Bool := false
  version : String := ""
  role : String := ""
  uptimeInSeconds : UInt64 := 0
  connectedClients : UInt64 := 0
  blockedClients : UInt64 := 0
  maxclients : UInt64 := 0
  usedMemory : UInt64 := 0
  maxmemory : UInt64 := 0
  memFragmentationRatio : ℚ := 0
  memoryUsedPercent : ℚ := 0
  totalCommandsProcessed : UInt64 := 0
  instantaneousOpsPerSec : ℚ := 0
  keyspaceHits : UInt64 := 0
  keyspaceMisses : UInt64 := 0
  keyspaceHitPercent : ℚ := 0
  expiredKeys : UInt64 := 0
  evictedKeys : UInt64 := 0
  rejectedConnections : UInt64 := 0
  totalErrorReplies : UInt64 := 0
  totalNetInputBytes : UInt64 := 0
  totalNetOutputBytes : UInt64 := 0
  replicationConfigured : Bool := false
  masterLinkUp : Bool := false
  connectedSlaves : UInt64 := 0
  masterLastIoSecondsAgo : ℚ := 0
  slowlogLen : UInt64 := 0
  deriving DecidableEq, Repr, Inhabited

/-- `MonitorInfo`: one push of a worker. -/
structure MonitorInfo where
  name : String := ""
  hostInfo : Option HostInfo := none
  softIrq : List SoftIrq := []
  cpuLoad : Option CpuLoad := none
  cpuStat : List CpuStat := []
  memInfo : Option MemInfo := none
  netInfo : List NetInfo := []
  diskInfo : List DiskInfo := []
  mysqlInfo : List MysqlInfo := []
  redisInfo : List RedisInfo := []
  deriving DecidableEq, Repr, Inhabited

/-- `WorkerIdentity`: what a push carries in its metadata. -/
structure WorkerIdentity where
  workerId : String := ""
  workerToken : String := ""
  deriving DecidableEq, Repr, Inhabited

/-- `WorkerScope`: the scope a registered worker writes into. -/
structure WorkerScope where
  tenantId : String := ""
  teamId : String := ""
  clusterId : String := ""
  serverId : UInt64 := 0
  deriving DecidableEq, Repr, Inhabited

end MonitorSystem
