import MonitorSystem.Manager.PushHistory
import MonitorSystem.Manager.QueryPages
import MonitorSystem.Manager.QueryRecords
import MonitorSystem.Manager.StoredRows

/-!
# From a push to the record of a query, and back

A sample is written by position, forty-three columns and as many values
(`MysqlWriter.performanceInsert`), and read by position, twenty-seven columns and as many
fields (`performanceRecord`). `PerformanceRecord.ofSample` is what the record ought to be:
each field with the quantity of its own name.

`PerformanceRecord.round_trip_iff` compares the two. The change rates of the sent and the
received bytes are written into each other's columns, so that a record is the right one
exactly when the two rates are equal.
-/

namespace MonitorSystem

open Sql

/-- `PerformanceRecord`; the timestamp in nanoseconds. -/
structure PerformanceRecord where
  serverName : String
  timestamp : ℤ
  cpuPercent : ℚ
  usrPercent : ℚ
  sysPercent : ℚ
  nicePercent : ℚ
  idlePercent : ℚ
  ioWaitPercent : ℚ
  irqPercent : ℚ
  softIrqPercent : ℚ
  loadAvg1 : ℚ
  loadAvg3 : ℚ
  loadAvg15 : ℚ
  memUsedPercent : ℚ
  memTotal : ℚ
  memFree : ℚ
  memAvail : ℚ
  diskUtilPercent : ℚ
  netSentBytes : ℚ
  netRecvBytes : ℚ
  score : ℚ
  cpuPercentRate : ℚ
  memUsedPercentRate : ℚ
  diskUtilPercentRate : ℚ
  loadAvg1Rate : ℚ
  netSentBytesRate : ℚ
  netRecvBytesRate : ℚ
  deriving DecidableEq, Repr

/-- The record that `queryPerformanceRecords` makes of a row. -/
def performanceRecord (d : ExactDialect) (clock : Clock) (row : List String) :
    PerformanceRecord where
  serverName := textAt row 0
  timestamp := timeAt clock row 1
  cpuPercent := toFloat d row 2
  usrPercent := toFloat d row 3
  sysPercent := toFloat d row 4
  nicePercent := toFloat d row 5
  idlePercent := toFloat d row 6
  ioWaitPercent := toFloat d row 7
  irqPercent := toFloat d row 8
  softIrqPercent := toFloat d row 9
  loadAvg1 := toFloat d row 10
  loadAvg3 := toFloat d row 11
  loadAvg15 := toFloat d row 12
  memUsedPercent := toFloat d row 13
  memTotal := toFloat d row 14
  memFree := toFloat d row 15
  memAvail := toFloat d row 16
  diskUtilPercent := toFloat d row 17
  netSentBytes := toFloat d row 18
  netRecvBytes := toFloat d row 19
  score := toFloat d row 20
  cpuPercentRate := toFloat d row 21
  memUsedPercentRate := toFloat d row 22
  diskUtilPercentRate := toFloat d row 23
  loadAvg1Rate := toFloat d row 24
  netSentBytesRate := toFloat d row 25
  netRecvBytesRate := toFloat d row 26

/-- A platform whose arithmetic is exact and that writes numbers as they are. -/
structure Platform.IsExact (p : Platform) : Prop where
  single : p.single = id
  double : p.double = id
  print : p.print = id

/-- **What the record of a sample ought to be**: every field with the quantity of its own
name, the rates as relative changes against the sample before. The rates of the first
interface are kept in megabytes per second. -/
def PerformanceRecord.ofSample (p : Platform) (info : MonitorInfo) (now : ℤ) (last : PerfSample)
    (lastUtil : Option ℚ) : PerformanceRecord :=
  let cpu := info.selectAggregateCpuStat.getD {}
  let load := info.cpuLoad.getD {}
  let mem := info.memInfo.getD {}
  let net := info.netInfo.head?.getD {}
  let util := maxUtil (info.diskInfo.map (·.utilPercent))
  { serverName := info.hostID
    timestamp := fromTimeT (now / 1000000000)
    cpuPercent := cpu.cpuPercent
    usrPercent := cpu.usrPercent
    sysPercent := cpu.systemPercent
    nicePercent := cpu.nicePercent
    idlePercent := cpu.idlePercent
    ioWaitPercent := cpu.ioWaitPercent
    irqPercent := cpu.irqPercent
    softIrqPercent := cpu.softIrqPercent
    loadAvg1 := load.loadAvg1
    loadAvg3 := load.loadAvg3
    loadAvg15 := load.loadAvg15
    memUsedPercent := mem.usedPercent
    memTotal := mem.total
    memFree := mem.free
    memAvail := mem.avail
    diskUtilPercent := util
    netSentBytes := net.sendRate
    netRecvBytes := net.rcvRate
    score := calculateScore p info
    cpuPercentRate := relativeChange cpu.cpuPercent (some last.cpuPercent)
    memUsedPercentRate := relativeChange mem.usedPercent (some last.memUsedPercent)
    diskUtilPercentRate := relativeChange util lastUtil
    loadAvg1Rate := relativeChange load.loadAvg1 (some last.loadAvg1)
    netSentBytesRate := relativeChange (net.sendRate / (1024 * 1024)) (some last.netOutRate)
    netRecvBytesRate := relativeChange (net.rcvRate / (1024 * 1024)) (some last.netInRate) }

/-- The change rates of the first interface's two directions are the same. -/
def SameChange (info : MonitorInfo) (last : PerfSample) : Prop :=
  relativeChange ((info.netInfo.head?.getD {}).sendRate / (1024 * 1024)) (some last.netOutRate) =
    relativeChange ((info.netInfo.head?.getD {}).rcvRate / (1024 * 1024)) (some last.netInRate)

/-! ### What is stored and read -/

/-- The columns of `queryPerformanceRecords`, in the order in which they are read. -/
def performanceColumns : List String :=
  ["server_name", "timestamp", "cpu_percent", "usr_percent", "system_percent", "nice_percent",
    "idle_percent", "io_wait_percent", "irq_percent", "soft_irq_percent", "load_avg_1",
    "load_avg_3", "load_avg_15", "mem_used_percent", "total", "free", "avail",
    "disk_util_percent", "send_rate", "rcv_rate", "score", "cpu_percent_rate",
    "mem_used_percent_rate", "disk_util_percent_rate", "load_avg_1_rate", "send_rate_rate",
    "rcv_rate_rate"]

section Stored

variable {p : Platform} {data : HostMonitoringData} {lastUtil : Option ℚ}

/-- The values that are stored in these columns. -/
theorem get_performanceInsert :
    performanceColumns.map (MysqlWriter.performanceInsert p data lastUtil).row.get =
      let info := data.hostScore.info
      let cpu := info.selectAggregateCpuStat.getD {}
      let load := info.cpuLoad.getD {}
      let mem := info.memInfo.getD {}
      let net := info.netInfo.head?.getD {}
      .text data.hostName :: MysqlWriter.timestampValue p data ::
        MysqlWriter.printed p [cpu.cpuPercent, cpu.usrPercent, cpu.systemPercent, cpu.nicePercent,
          cpu.idlePercent, cpu.ioWaitPercent, cpu.irqPercent, cpu.softIrqPercent, load.loadAvg1,
          load.loadAvg3, load.loadAvg15, mem.usedPercent, mem.total, mem.free, mem.avail,
          MysqlWriter.diskUtilPercent p info, net.sendRate, net.rcvRate, data.hostScore.score,
          data.cpuPercentRate, data.memUsedPercentRate,
          MysqlWriter.diskUtilPercentRate p info lastUtil, data.loadAvg1Rate, data.netInRateRate,
          data.netOutRateRate] := by
  rfl

theorem Platform.IsExact.rate_eq (hp : p.IsExact) (x y : ℚ) :
    p.rate x y = relativeChange x (some y) := by
  simp [Platform.rate, relativeChange, hp.single]

theorem Platform.IsExact.diskUtilPercent_eq (hp : p.IsExact) (info : MonitorInfo) :
    MysqlWriter.diskUtilPercent p info = maxUtil (info.diskInfo.map (·.utilPercent)) := by
  simp [MysqlWriter.diskUtilPercent, hp.single]

theorem Platform.IsExact.diskUtilPercentRate_eq (hp : p.IsExact) (info : MonitorInfo) :
    MysqlWriter.diskUtilPercentRate p info lastUtil =
      relativeChange (maxUtil (info.diskInfo.map (·.utilPercent))) lastUtil := by
  cases lastUtil with
  | none => rfl
  | some util => simp [MysqlWriter.diskUtilPercentRate, hp.diskUtilPercent_eq, hp.rate_eq]

/-- **What is read back from the row of a sample.** The change rates of the two directions
have changed places. -/
theorem performanceRecord_stored {d : ExactDialect} {clock : Clock} {info : MonitorInfo}
    {scope : WorkerScope} {now : ℤ} {last : PerfSample} {r : Row} (hp : p.IsExact)
    (hstamp : p.localTime (now / 1000000000) ≠ "")
    (hclock : clock.mktime (p.localTime (now / 1000000000)) = now / 1000000000)
    (hr : ∀ c, c ≠ "id" → r.get c = (MysqlWriter.performanceInsert p
      (monitoringData p info scope now last) lastUtil).row.get c) :
    performanceRecord d clock (Row.texts d.toDialect performanceColumns r) =
      { PerformanceRecord.ofSample p info now last lastUtil with
        netSentBytesRate := (PerformanceRecord.ofSample p info now last lastUtil).netRecvBytesRate
        netRecvBytesRate :=
          (PerformanceRecord.ofSample p info now last lastUtil).netSentBytesRate } := by
  have htexts : Row.texts d.toDialect performanceColumns r =
      (performanceColumns.map (MysqlWriter.performanceInsert p
        (monitoringData p info scope now last) lastUtil).row.get).map d.fetch := by
    rw [Row.texts, List.map_map]
    refine List.map_congr_left fun c hc => ?_
    rw [hr c (by rintro rfl; revert hc; decide)]
    rfl
  have hprinted : ∀ qs, MysqlWriter.printed p qs = qs.map Value.num := by
    simp [MysqlWriter.printed, hp.print]
  have hin : (monitoringData p info scope now last).netInRateRate =
      (PerformanceRecord.ofSample p info now last lastUtil).netRecvBytesRate := by
    simp [monitoringData, perfSample, PerformanceRecord.ofSample, hp.rate_eq, Platform.ddiv,
      hp.single, hp.double]
  have hout : (monitoringData p info scope now last).netOutRateRate =
      (PerformanceRecord.ofSample p info now last lastUtil).netSentBytesRate := by
    simp [monitoringData, perfSample, PerformanceRecord.ofSample, hp.rate_eq, Platform.ddiv,
      hp.single, hp.double]
  have htime : timeAt clock [d.fetch (.text info.hostID),
      d.fetch (.text (p.localTime (now / 1000000000)))] 1 = fromTimeT (now / 1000000000) := by
    simp [timeAt, textAt, d.fetch_text, hstamp, parseTimeString, hclock]
  rw [htexts, get_performanceInsert]
  simp only [hprinted]
  rw [performanceRecord, PerformanceRecord.mk.injEq]
  refine ⟨d.fetch_text _, htime, ?_⟩
  and_intros
  -- the quantities as they are, then the rates
  iterate 15 exact toFloat_fetched rfl _ rfl
  · exact (toFloat_fetched rfl _ rfl).trans (hp.diskUtilPercent_eq info)
  iterate 3 exact toFloat_fetched rfl _ rfl
  · exact (toFloat_fetched rfl _ rfl).trans (hp.rate_eq _ _)
  · exact (toFloat_fetched rfl _ rfl).trans (hp.rate_eq _ _)
  · exact (toFloat_fetched rfl _ rfl).trans (hp.diskUtilPercentRate_eq info)
  · exact (toFloat_fetched rfl _ rfl).trans (hp.rate_eq _ _)
  · exact (toFloat_fetched rfl _ rfl).trans hin
  · exact (toFloat_fetched rfl _ rfl).trans hout

end Stored

/-! ### The round trip -/

/-- The one row of `server_performance` that is written, for a record that has a scope. -/
theorem eq_performanceInsert {p : Platform} {l : MysqlWriter.LastSamples}
    {data : HostMonitoringData} {ins : Insert} (h : ins ∈ (MysqlWriter.writeToMysql p l data).2)
    (htable : ins.table = .serverPerformance) :
    ins = MysqlWriter.performanceInsert p data (l.lastDiskUtil data.hostName) ∧
      data.scope.tenantId ≠ "" ∧ data.scope.teamId ≠ "" ∧ data.scope.clusterId ≠ "" := by
  obtain ⟨hscope, rfl | ⟨_, _, rfl⟩ | ⟨_, _, rfl⟩ | ⟨_, _, rfl⟩ | ⟨_, _, rfl⟩ | ⟨_, _, rfl⟩ |
    ⟨_, _, rfl⟩⟩ := MysqlWriter.writeToMysql_cases h
  · exact ⟨rfl, hscope⟩
  all_goals cases htable

namespace PerformanceRecord

/-- **When a sample survives the way into the table and back.** For every push, whatever was
kept of the sample before: once the row of the sample is in the table, a query for its
scope, its host and a range with its time, on a page that holds all that is asked for, hands
the row out; and the record that is read from it has in every field the quantity of its own
name, if and only if the send rate and the receive rate of the first interface have changed
by the same share. -/
theorem round_trip_iff (d : ExactDialect) (clock : Clock) (db : Tables) (m : QueryManager)
    (hlease : m.lease = .acquired) (hexact : m.platform.IsExact) (h : HostManager)
    (l : MysqlWriter.LastSamples) (c : Received) (data : HostMonitoringData)
    (hdata : (h.onDataReceived m.platform c.info c.identity c.row c.now).2 = some data)
    (ins : Insert) (hins : ins ∈ (MysqlWriter.writeToMysql m.platform l data).2)
    (htable : ins.table = .serverPerformance) (r : Row) (hr : r ∈ db.rows .serverPerformance)
    (hstored : ∀ column, column ≠ "id" → r.get column = ins.row.get column)
    (hstamp : m.platform.localTime (c.now / 1000000000) ≠ "")
    (hclock : clock.mktime (m.platform.localTime (c.now / 1000000000)) = c.now / 1000000000)
    (cluster : String) (hcluster : cluster = "" ∨ cluster = data.scope.clusterId)
    (range : TimeRange) (hrange : validateTimeRange range = true)
    (hin : InRange d.toDialect (formatTimePoint m.platform range.startTime)
      (formatTimePoint m.platform range.endTime) r) (size : ℕ) (hsize : 0 < size)
    (hall : (m.wanted d.toDialect db.toDatabase .serverPerformance
      ⟨data.scope.tenantId, data.scope.teamId, cluster⟩ data.hostName range).length ≤ size)
    (e : Execution d.toDialect db.rows (m.queryPerformanceRecords
      ⟨data.scope.tenantId, data.scope.teamId, cluster⟩ data.hostName range 1 size)) :
    (∃ i : ℕ, e.rows[i]? = some r) ∧
      ∃ (n : ℤ) (texts : Rows), e.result = .ok (.page n texts) ∧
        ∀ i : ℕ, e.rows[i]? = some r →
          ((texts.map (performanceRecord d clock))[i]? = some (ofSample m.platform c.info c.now
            (h.lastPerfSamples c.info.hostID) (l.lastDiskUtil data.hostName)) ↔
              SameChange c.info (h.lastPerfSamples c.info.hostID)) := by
  obtain ⟨scope, -, -, rfl⟩ := HostManager.exists_scope_of_onDataReceived hdata
  obtain ⟨rfl, htenant, hteam, -⟩ := eq_performanceInsert hins htable
  -- the row is asked for
  have hget : ∀ column ∈ ["tenant_id", "team_id", "cluster_id", "server_name"],
      r.get column = (MysqlWriter.performanceInsert m.platform (monitoringData m.platform c.info
        scope c.now (h.lastPerfSamples c.info.hostID)) (l.lastDiskUtil c.info.hostID)).row.get
          column := by
    intro column hcolumn
    exact hstored column (by rintro rfl; revert hcolumn; decide)
  have hwanted : r ∈ m.wanted d.toDialect db.toDatabase .serverPerformance
      ⟨scope.tenantId, scope.teamId, cluster⟩ c.info.hostID range := by
    refine List.mem_filter.mpr ⟨hr, decide_eq_true ⟨⟨?_, ?_, fun hne => ?_⟩, ?_, hin⟩⟩
    · exact hget "tenant_id" (by simp)
    · exact hget "team_id" (by simp)
    · obtain rfl := hcluster.resolve_left hne
      exact hget "cluster_id" (by simp)
    · exact hget "server_name" (by simp)
  obtain ⟨hperm, hresult⟩ := PagedQuery.execution_first_page hlease ⟨htenant, hteam⟩ hrange hsize
    hall e
  refine ⟨List.mem_iff_getElem?.mp (hperm.mem_iff.mpr hwanted), _,
    e.rows.map (Row.texts d.toDialect performanceColumns), hresult, fun i hi => ?_⟩
  have hat := congrArg (Option.map fun r =>
    performanceRecord d clock (Row.texts d.toDialect performanceColumns r)) hi
  rw [Option.map_some, performanceRecord_stored hexact hstamp hclock hstored] at hat
  rw [List.map_map, List.getElem?_map]
  refine (iff_of_eq (congrArg (· = _) hat)).trans ?_
  rw [Option.some.injEq]
  simp only [SameChange, ofSample, PerformanceRecord.mk.injEq, true_and]
  exact ⟨fun ⟨_, h⟩ => h, fun h => ⟨h.symm, h⟩⟩

/-- A push of a worker of the tenant `acme`, at midnight, with the rates of its interface in
megabytes per second. -/
def newYearPush (sent rcv : ℚ) : Received where
  info :=
    { name := "web-01"
      netInfo := [{ name := "eth0", sendRate := 1048576 * sent, rcvRate := 1048576 * rcv }] }
  identity := ⟨"worker-1", ""⟩
  row := some ⟨some "acme", some "ops", some "prod", 0, none⟩
  now := 1704067200000000000

/-- The manager after a sample with one megabyte per second in both directions. -/
def afterOneMegabyte : HostManager :=
  { HostManager.init with lastPerfSamples := fun _ => { netInRate := 1, netOutRate := 1 } }

/-- The record of the push. -/
def newYearData (sent rcv : ℚ) : HostMonitoringData :=
  monitoringData PagedQuery.newYearManager.platform (newYearPush sent rcv).info
    ⟨"acme", "ops", "prod", 0⟩ (newYearPush sent rcv).now { netInRate := 1, netOutRate := 1 }

/-- Its row, as the table numbers it. -/
def newYearRow (sent rcv : ℚ) : Row :=
  ("id", .int 1) :: (MysqlWriter.performanceInsert PagedQuery.newYearManager.platform
    (newYearData sent rcv) none).row

/-- The table with this row. -/
def newYearTables (sent rcv : ℚ) : Tables :=
  .single .serverPerformance [newYearRow sent rcv] (by
    intro r hr
    obtain rfl := List.mem_singleton.mp hr
    rfl) (List.nodup_singleton _) (by simp)

theorem wanted_newYear (sent rcv : ℚ) :
    PagedQuery.newYearManager.wanted ExactDialect.reference.toDialect
      (newYearTables sent rcv).toDatabase .serverPerformance ⟨"acme", "ops", "prod"⟩ "web-01"
        PagedQuery.newYear = [newYearRow sent rcv] := by
  have htime : (newYearRow sent rcv).get "timestamp" = .text "2024-01-01 00:00:00" := rfl
  refine List.filter_eq_self.mpr fun r hr => ?_
  obtain rfl : r = newYearRow sent rcv := List.mem_singleton.mp hr
  refine decide_eq_true ⟨⟨rfl, rfl, fun _ => rfl⟩, rfl, ?_⟩
  rw [InRange, htime]
  decide

/-- The number of a row is in a column of its own. -/
theorem get_newYearRow (sent rcv : ℚ) (column : String) (h : column ≠ "id") :
    (newYearRow sent rcv).get column = (MysqlWriter.performanceInsert
      PagedQuery.newYearManager.platform (newYearData sent rcv) none).row.get column := by
  have hne : (column == "id") = false := beq_false_of_ne h
  simp [newYearRow, Row.get, List.lookup_cons, hne]

theorem isExact_newYear : PagedQuery.newYearManager.platform.IsExact := ⟨rfl, rfl, rfl⟩

/-- A clock that reads the time of the sample. -/
def newYearClock : Clock := ⟨fun _ => 1704067200, 0⟩

/-- **The send rate doubles, and the record says that the receive rate did.** Whatever the
execution, the only record of the answer has the two change rates the wrong way round. -/
theorem doubled_send_rate_swapped :
    Nonempty (Execution ExactDialect.reference.toDialect (newYearTables 2 1).rows
        (PagedQuery.newYearManager.queryPerformanceRecords ⟨"acme", "ops", "prod"⟩ "web-01"
          PagedQuery.newYear 1 (1 : ℕ))) ∧
      ∀ e : Execution ExactDialect.reference.toDialect (newYearTables 2 1).rows
          (PagedQuery.newYearManager.queryPerformanceRecords ⟨"acme", "ops", "prod"⟩ "web-01"
            PagedQuery.newYear 1 (1 : ℕ)),
        ∃ (n : ℤ) (t : List String), e.result = .ok (.page n [t]) ∧
          (performanceRecord ExactDialect.reference newYearClock t).netSentBytesRate = 0 ∧
          (performanceRecord ExactDialect.reference newYearClock t).netRecvBytesRate = 1 ∧
          (ofSample PagedQuery.newYearManager.platform (newYearPush 2 1).info
            (newYearPush 2 1).now { netInRate := 1, netOutRate := 1 } none).netSentBytesRate = 1 ∧
          (ofSample PagedQuery.newYearManager.platform (newYearPush 2 1).info
            (newYearPush 2 1).now { netInRate := 1, netOutRate := 1 } none).netRecvBytesRate =
              0 := by
  have hsent : (ofSample PagedQuery.newYearManager.platform (newYearPush 2 1).info
      (newYearPush 2 1).now { netInRate := 1, netOutRate := 1 } none).netSentBytesRate = 1 := by
    decide +kernel
  have hrecv : (ofSample PagedQuery.newYearManager.platform (newYearPush 2 1).info
      (newYearPush 2 1).now { netInRate := 1, netOutRate := 1 } none).netRecvBytesRate = 0 := by
    decide +kernel
  constructor
  · have hl : Paging.Listing (ExactDialect.reference.later "timestamp")
        (PagedQuery.newYearManager.wanted ExactDialect.reference.toDialect
          (newYearTables 2 1).toDatabase .serverPerformance ⟨"acme", "ops", "prod"⟩ "web-01"
            PagedQuery.newYear) [newYearRow 2 1] :=
      ⟨by rw [wanted_newYear], List.pairwise_singleton _ _⟩
    obtain ⟨e, -⟩ : ∃ e : Execution ExactDialect.reference.toDialect (newYearTables 2 1).rows
        (PagedQuery.newYearManager.queryPerformanceRecords ⟨"acme", "ops", "prod"⟩ "web-01"
          PagedQuery.newYear ((0 : ℕ) + 1) (1 : ℕ)), _ :=
      PagedQuery.exists_execution_page rfl (by decide) (by decide) (by decide) 0 hl
    exact ⟨e⟩
  · intro e
    obtain ⟨hperm, hresult⟩ := PagedQuery.execution_first_page rfl (by decide) (by decide)
      (by decide) (by rw [wanted_newYear]; decide) e
    rw [wanted_newYear] at hperm
    rw [List.perm_singleton.mp hperm] at hresult
    have hrecord : performanceRecord ExactDialect.reference newYearClock
        (Row.texts ExactDialect.reference.toDialect performanceColumns (newYearRow 2 1)) = _ :=
      performanceRecord_stored isExact_newYear (by decide) rfl (get_newYearRow 2 1)
    refine ⟨_, Row.texts ExactDialect.reference.toDialect performanceColumns (newYearRow 2 1),
      hresult, ?_, ?_, hsent, hrecv⟩
    · rw [hrecord]
      exact hrecv
    · rw [hrecord]
      exact hsent

/-- Where both rates double, the record is the right one. -/
theorem round_trip_iff_doubled :
    SameChange (newYearPush 2 2).info { netInRate := 1, netOutRate := 1 } ∧
      ∀ e : Execution ExactDialect.reference.toDialect (newYearTables 2 2).rows
          (PagedQuery.newYearManager.queryPerformanceRecords ⟨"acme", "ops", "prod"⟩ "web-01"
            PagedQuery.newYear 1 (1 : ℕ)),
        ∃ (i : ℕ) (n : ℤ) (texts : Rows), e.result = .ok (.page n texts) ∧
          (texts.map (performanceRecord ExactDialect.reference newYearClock))[i]? =
            some (ofSample PagedQuery.newYearManager.platform (newYearPush 2 2).info
              (newYearPush 2 2).now { netInRate := 1, netOutRate := 1 } none) := by
  have hsame : SameChange (newYearPush 2 2).info { netInRate := 1, netOutRate := 1 } := rfl
  refine ⟨hsame, fun e => ?_⟩
  obtain ⟨⟨i, hi⟩, n, texts, hresult, h⟩ := round_trip_iff ExactDialect.reference newYearClock
    (newYearTables 2 2) PagedQuery.newYearManager rfl isExact_newYear afterOneMegabyte .init
    (newYearPush 2 2) (newYearData 2 2) rfl _ (List.mem_cons_self ..) rfl (newYearRow 2 2)
    (List.mem_singleton_self _) (get_newYearRow 2 2) (by decide) rfl "prod" (.inr rfl)
    PagedQuery.newYear (by decide) (by decide) 1 (by decide)
    (congrArg List.length (wanted_newYear 2 2)).le e
  exact ⟨i, n, texts, hresult, (h i hi).mpr hsame⟩

end PerformanceRecord

end MonitorSystem
