import MonitorSystem.Manager.Basic
import MonitorSystem.Manager.MonitorInfo
import Mathlib.Algebra.Order.Ring.Rat
import Mathlib.Logic.Function.Basic

/-!
# Receiving a sample

What `HostManager::onDataReceived` (`manager/src/HostManager.cpp`) makes of a push: it
resolves the worker's scope, names the host, computes its score and the change rates
against the host's previous sample, and produces the record that goes into the write
queue.

Floating-point arithmetic is exact arithmetic followed by a rounding, and the
roundings are parameters (`Platform`), as is the text of a local time: nothing proved
here depends on which they are. A map that the source reads with `operator[]` is a
function that is the default sample where the source's map has no entry yet.
-/

namespace MonitorSystem

/-- What the compiled program takes from the machine it runs on. -/
structure Platform where
  /-- Rounding to `float`. -/
  single : ℚ → ℚ
  /-- Rounding to `double`. -/
  double : ℚ → ℚ
  /-- The number that a stream writes for a floating-point value. -/
  print : ℚ → ℚ
  /-- The text of it. -/
  text : ℚ → String
  /-- `strftime` of `localtime`, for a time in seconds. -/
  localTime : ℤ → String

/-- A platform on which arithmetic is exact. -/
def Platform.exact : Platform where
  single := id
  double := id
  print := id
  text q := toString q.num ++ "/" ++ toString q.den
  localTime t := toString t

namespace Platform

variable (p : Platform)

/-- A `double` sum. -/
def dadd (a b : ℚ) : ℚ := p.double (a + b)

/-- A `double` difference. -/
def dsub (a b : ℚ) : ℚ := p.double (a - b)

/-- A `double` product. -/
def dmul (a b : ℚ) : ℚ := p.double (a * b)

/-- A `double` quotient. -/
def ddiv (a b : ℚ) : ℚ := p.double (a / b)

/-- `rate`: the relative change from a previous value, zero where there is none. -/
def rate (nowVal lastVal : ℚ) : ℚ :=
  if lastVal = 0 then 0 else p.single (p.single (nowVal - lastVal) / lastVal)

end Platform

/-! ### Naming the host -/

namespace MonitorInfo

/-- The host id as `onDataReceived` computes it. -/
def hostID (info : MonitorInfo) : String :=
  let named :=
    match info.hostInfo with
    | some h =>
      if h.hostname ≠ "" ∧ h.ipAddress ≠ "" then h.hostname ++ "_" ++ h.ipAddress
      else if h.ipAddress ≠ "" then h.ipAddress
      else if h.hostname ≠ "" then h.hostname
      else ""
    | none => ""
  if named = "" then info.name else named

/-! ### The score -/

/-- `selectAggregateCpuStat`: the first statistics named `all`, else the first ones named
`cpu`, else the first ones. -/
def selectAggregateCpuStat (info : MonitorInfo) : Option CpuStat :=
  match info.cpuStat.find? fun c => c.cpuName = "all" with
  | some c => some c
  | none =>
    match info.cpuStat.find? fun c => c.cpuName = "cpu" with
    | some c => some c
    | none => info.cpuStat.head?

/-- `isPerCoreCpuName`: `cpu` followed by digits. -/
def isPerCoreCpuName (name : String) : Bool :=
  3 < name.length && name.toList.take 3 = ['c', 'p', 'u'] &&
    (name.toList.drop 3).all Char.isDigit

/-- `countCpuCores`: the number of per-core statistics, at least one. -/
def countCpuCores (info : MonitorInfo) : ℕ :=
  let cores := (info.cpuStat.filter fun c => isPerCoreCpuName c.cpuName).length
  if 0 < cores then cores else 1

end MonitorInfo

/-- `clamp` of `calculateScore`. -/
def clamp (value : ℚ) : ℚ := if value < 0 then 0 else if 1 < value then 1 else value

/-- The greatest of some utilisations, zero if none is positive. -/
def maxUtil (utils : List ℚ) : ℚ :=
  utils.foldl (fun best util => if best < util then util else best) 0

/-- `calculateScore`: the weighted score of a host, between 0 and 100. -/
def calculateScore (p : Platform) (info : MonitorInfo) : ℚ :=
  let cpuPercent := (info.selectAggregateCpuStat.map (·.cpuPercent)).getD 0
  let cpuCores : ℕ := if info.selectAggregateCpuStat.isSome then info.countCpuCores else 1
  let loadAvg1 := (info.cpuLoad.map (·.loadAvg1)).getD 0
  let memPercent := (info.memInfo.map (·.usedPercent)).getD 0
  let netRecvRate := (info.netInfo.head?.map (·.rcvRate)).getD 0
  let netSendRate := (info.netInfo.head?.map (·.sendRate)).getD 0
  let diskUtil := maxUtil (info.diskInfo.map (·.utilPercent))
  let maxBandWidth := 125000000
  let part (value scale : ℚ) := clamp (p.dsub 1 (p.ddiv value scale))
  let netScore := p.ddiv (p.dadd (part netRecvRate maxBandWidth) (part netSendRate maxBandWidth)) 2
  let weighted (weight value : ℚ) := p.dmul (p.double weight) value
  let sum := p.dadd (p.dadd (p.dadd (p.dadd
    (weighted 0.35 (part cpuPercent 100))
    (weighted 0.30 (part memPercent 100)))
    (weighted 0.15 (part loadAvg1 (p.dmul cpuCores 1.5))))
    (weighted 0.15 (part diskUtil 100)))
    (weighted 0.05 netScore)
  let score := p.dmul sum 100
  if score < 0 then 0 else if 100 < score then 100 else score

/-! ### Resolving the worker -/

/-- The row `resolveWorkerScope` selects from `worker_registrations`, for a worker id
and the status `active`; a column may be null. -/
structure Registration where
  tenantId : Option String
  teamId : Option String
  clusterId : Option String
  /-- `COALESCE(server_id, 0)`. -/
  serverId : UInt64
  tokenHash : Option String
  deriving DecidableEq, Repr

/-- `resolveWorkerScope`, given what its query returned: no row where there is no
connection, the query fails or no row matches. -/
def resolveWorkerScope (identity : WorkerIdentity) (row : Option Registration) :
    Option WorkerScope :=
  if identity.workerId = "" then none
  else
    row.bind fun r =>
      let expectedToken := r.tokenHash.getD ""
      if expectedToken ≠ "" ∧ expectedToken ≠ identity.workerToken then none
      else
        let scope : WorkerScope :=
          ⟨r.tenantId.getD "", r.teamId.getD "", r.clusterId.getD "", r.serverId⟩
        if scope.tenantId ≠ "" ∧ scope.teamId ≠ "" ∧ scope.clusterId ≠ "" then some scope
        else none

/-- A scope that is resolved is complete. -/
theorem ne_empty_of_resolveWorkerScope {identity : WorkerIdentity} {row : Option Registration}
    {scope : WorkerScope} (h : resolveWorkerScope identity row = some scope) :
    scope.tenantId ≠ "" ∧ scope.teamId ≠ "" ∧ scope.clusterId ≠ "" := by
  unfold resolveWorkerScope at h
  split at h
  · cases h
  · obtain ⟨r, -, hr⟩ := Option.bind_eq_some_iff.mp h
    dsimp only at hr
    split at hr
    · cases hr
    · split at hr
      · next hne =>
        cases hr
        exact hne
      · cases hr

/-! ### The record of a sample -/

/-- `PerfSample`: what the change rates of the next sample are computed against. -/
structure PerfSample where
  cpuPercent : ℚ := 0
  usrPercent : ℚ := 0
  systemPercent : ℚ := 0
  nicePercent : ℚ := 0
  idlePercent : ℚ := 0
  ioWaitPercent : ℚ := 0
  irqPercent : ℚ := 0
  softIrqPercent : ℚ := 0
  loadAvg1 : ℚ := 0
  loadAvg3 : ℚ := 0
  loadAvg15 : ℚ := 0
  memUsedPercent : ℚ := 0
  memTotal : ℚ := 0
  memFree : ℚ := 0
  memAvail : ℚ := 0
  netInRate : ℚ := 0
  netOutRate : ℚ := 0
  score : ℚ := 0
  deriving DecidableEq, Repr, Inhabited

/-- The `PerfSample` of a push. -/
def perfSample (p : Platform) (info : MonitorInfo) (score : ℚ) : PerfSample :=
  let cpu := info.selectAggregateCpuStat.getD {}
  let load := info.cpuLoad.getD {}
  let mem := info.memInfo.getD {}
  let net := info.netInfo.head?.getD {}
  { cpuPercent := cpu.cpuPercent
    usrPercent := cpu.usrPercent
    systemPercent := cpu.systemPercent
    nicePercent := cpu.nicePercent
    idlePercent := cpu.idlePercent
    ioWaitPercent := cpu.ioWaitPercent
    irqPercent := cpu.irqPercent
    softIrqPercent := cpu.softIrqPercent
    loadAvg1 := load.loadAvg1
    loadAvg3 := load.loadAvg3
    loadAvg15 := load.loadAvg15
    memUsedPercent := mem.usedPercent
    memTotal := mem.total
    memFree := mem.free
    memAvail := mem.avail
    netInRate := p.single (p.ddiv net.rcvRate (1024 * 1024))
    netOutRate := p.single (p.ddiv net.sendRate (1024 * 1024))
    score := p.single score }

/-- `HostScore`: the last push of a host, its score and when it came. -/
structure HostScore where
  info : MonitorInfo
  score : ℚ
  /-- In nanoseconds. -/
  timestamp : ℤ
  deriving DecidableEq, Repr

/-- `HostMonitoringData`: what goes into the write queue. -/
structure HostMonitoringData where
  hostName : String
  scope : WorkerScope
  hostScore : HostScore
  netInRate : ℚ
  netOutRate : ℚ
  cpuPercentRate : ℚ
  usrPercentRate : ℚ
  systemPercentRate : ℚ
  nicePercentRate : ℚ
  idlePercentRate : ℚ
  ioWaitPercentRate : ℚ
  irqPercentRate : ℚ
  softIrqPercentRate : ℚ
  stealPercentRate : ℚ
  guestPercentRate : ℚ
  guestNicePercentRate : ℚ
  loadAvg1Rate : ℚ
  loadAvg3Rate : ℚ
  loadAvg15Rate : ℚ
  memUsedPercentRate : ℚ
  memTotalRate : ℚ
  memFreeRate : ℚ
  memAvailRate : ℚ
  netInRateRate : ℚ
  netOutRateRate : ℚ
  netInDropRateRate : ℚ
  netOutDropRateRate : ℚ
  deriving DecidableEq, Repr

/-- The record of a push, with the change rates against the previous sample `last`. -/
def monitoringData (p : Platform) (info : MonitorInfo) (scope : WorkerScope) (now : ℤ)
    (last : PerfSample) : HostMonitoringData :=
  let score := calculateScore p info
  let curr := perfSample p info score
  let change (field : PerfSample → ℚ) := p.rate (field curr) (field last)
  { hostName := info.hostID
    scope := scope
    hostScore := ⟨info, score, now⟩
    netInRate := curr.netInRate
    netOutRate := curr.netOutRate
    cpuPercentRate := change (·.cpuPercent)
    usrPercentRate := change (·.usrPercent)
    systemPercentRate := change (·.systemPercent)
    nicePercentRate := change (·.nicePercent)
    idlePercentRate := change (·.idlePercent)
    ioWaitPercentRate := change (·.ioWaitPercent)
    irqPercentRate := change (·.irqPercent)
    softIrqPercentRate := change (·.softIrqPercent)
    stealPercentRate := 0
    guestPercentRate := 0
    guestNicePercentRate := 0
    loadAvg1Rate := change (·.loadAvg1)
    loadAvg3Rate := change (·.loadAvg3)
    loadAvg15Rate := change (·.loadAvg15)
    memUsedPercentRate := change (·.memUsedPercent)
    memTotalRate := change (·.memTotal)
    memFreeRate := change (·.memFree)
    memAvailRate := change (·.memAvail)
    netInRateRate := change (·.netInRate)
    netOutRateRate := change (·.netOutRate)
    netInDropRateRate := 0
    netOutDropRateRate := 0 }

/-! ### Receiving -/

/-- What `onDataReceived` keeps from one push to the next. -/
structure HostManager where
  /-- `lastPerfSamples`. -/
  lastPerfSamples : String → PerfSample
  /-- `hostScores_`. -/
  hostScores : String → Option HostScore
  /-- The scores it puts into Redis, by key. -/
  cachedScores : String → Option String
  metrics : ManagerMetrics

namespace HostManager

/-- The manager before the first push. -/
def init : HostManager where
  lastPerfSamples _ := {}
  hostScores _ := none
  cachedScores _ := none
  metrics := {}

/-- The Redis key of a host's latest score. -/
def scoreKey (hostID : String) : String := "manager:latest_score:" ++ hostID

/-- The text cached for a host. -/
def scoreText (p : Platform) (hostID : String) (score : ℚ) : String :=
  "\x7b\"server_name\":\"" ++ hostID ++ "\",\"score\":" ++ p.text score ++ "\x7d"

/-- **`onDataReceived`**, given what the registry returned: the new state and what is
handed to `enqueueMysqlWrite`. -/
def onDataReceived (p : Platform) (m : HostManager) (info : MonitorInfo)
    (identity : WorkerIdentity) (row : Option Registration) (now : ℤ) :
    HostManager × Option HostMonitoringData :=
  match resolveWorkerScope identity row with
  | none =>
    ({ m with metrics := { m.metrics with
        droppedMonitorSamples := m.metrics.droppedMonitorSamples + 1 } }, none)
  | some scope =>
    if info.hostID = "" then (m, none)
    else
      let score := calculateScore p info
      let data := monitoringData p info scope now (m.lastPerfSamples info.hostID)
      ({ m with
          lastPerfSamples :=
            Function.update m.lastPerfSamples info.hostID (perfSample p info score)
          hostScores := Function.update m.hostScores info.hostID (some ⟨info, score, now⟩)
          cachedScores := Function.update m.cachedScores (scoreKey info.hostID)
            (some (scoreText p info.hostID score)) },
        some data)

section Received

variable {p : Platform} {m : HostManager} {info : MonitorInfo} {identity : WorkerIdentity}
  {row : Option Registration} {now : ℤ}

/-- A push that resolves to no scope, or names no host, leaves everything but the counters
alone. -/
theorem onDataReceived_of_dropped
    (h : resolveWorkerScope identity row = none ∨ info.hostID = "") :
    ∃ metrics, m.onDataReceived p info identity row now = ({ m with metrics }, none) := by
  unfold onDataReceived
  split
  · exact ⟨_, rfl⟩
  · next scope hscope =>
    have hid : info.hostID = "" := h.resolve_left (by simp [hscope])
    exact ⟨m.metrics, if_pos hid⟩

/-- A push of a resolved scope with a host id replaces what is kept for the host. -/
theorem onDataReceived_of_resolved {scope : WorkerScope}
    (hscope : resolveWorkerScope identity row = some scope) (hid : info.hostID ≠ "") :
    m.onDataReceived p info identity row now =
      ({ m with
          lastPerfSamples := Function.update m.lastPerfSamples info.hostID
            (perfSample p info (calculateScore p info))
          hostScores := Function.update m.hostScores info.hostID
            (some ⟨info, calculateScore p info, now⟩)
          cachedScores := Function.update m.cachedScores (scoreKey info.hostID)
            (some (scoreText p info.hostID (calculateScore p info))) },
        some (monitoringData p info scope now (m.lastPerfSamples info.hostID))) := by
  simp [onDataReceived, hscope, hid]

/-- What is handed on is the record of the push, in a scope it resolves to. -/
theorem exists_scope_of_onDataReceived {data : HostMonitoringData}
    (h : (m.onDataReceived p info identity row now).2 = some data) :
    ∃ scope, resolveWorkerScope identity row = some scope ∧ info.hostID ≠ "" ∧
      data = monitoringData p info scope now (m.lastPerfSamples info.hostID) := by
  by_cases hdrop : resolveWorkerScope identity row = none ∨ info.hostID = ""
  · have hnone : (m.onDataReceived p info identity row now).2 = none := by
      obtain ⟨metrics, hm⟩ := onDataReceived_of_dropped hdrop
      rw [hm]
    rw [hnone] at h
    cases h
  · obtain ⟨hres, hid⟩ := not_or.mp hdrop
    obtain ⟨scope, hscope⟩ := Option.ne_none_iff_exists'.mp hres
    rw [onDataReceived_of_resolved hscope hid] at h
    exact ⟨scope, hscope, hid, (Option.some.inj h).symm⟩

end Received

end HostManager

end MonitorSystem
