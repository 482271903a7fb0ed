import MonitorSystem.Library.SignificantDigits
import MonitorSystem.Manager.DetailTables
import MonitorSystem.Manager.PerformanceRoundTrip

/-!
# From the soft interrupt counts of a push to the records of a query, and back

A worker counts the soft interrupts of a CPU in 64-bit integers
(`worker/src/monitor/CpuSoftirqMonitor.cpp`) and pushes them in fields of type `float`
(`proto/cpu_softirq.proto`). The manager writes a `float` with the six significant digits of a
stream, into a column of 64-bit integers, and reads a 64-bit integer back.

`keptCount` is what becomes of a count on the way. It is the count itself exactly when six
significant decimal digits hold it (`keptCount_eq_iff`), which is the condition for a record
to be right (`softIrq_round_trip_iff`).
-/

namespace MonitorSystem

open Sql MysqlWriter ColumnType

/-- The counts of a CPU, as the worker computes them. -/
structure SoftIrqCounts where
  cpu : String := ""
  hi : Int64 := 0
  timer : Int64 := 0
  netTx : Int64 := 0
  netRx : Int64 := 0
  block : Int64 := 0
  irqPoll : Int64 := 0
  tasklet : Int64 := 0
  sched : Int64 := 0
  hrtimer : Int64 := 0
  rcu : Int64 := 0
  deriving DecidableEq, Repr

/-- The message that `CpuSoftIrqMonitor::updateOnce` makes of them. -/
def SoftIrqCounts.message (p : Platform) (s : SoftIrqCounts) : SoftIrq where
  cpu := s.cpu
  hi := p.single s.hi.toInt
  timer := p.single s.timer.toInt
  netTx := p.single s.netTx.toInt
  netRx := p.single s.netRx.toInt
  block := p.single s.block.toInt
  irqPoll := p.single s.irqPoll.toInt
  tasklet := p.single s.tasklet.toInt
  sched := p.single s.sched.toInt
  hrtimer := p.single s.hrtimer.toInt
  rcu := p.single s.rcu.toInt

/-- `SoftIrqDetailRecord`; the timestamp in nanoseconds. -/
structure SoftIrqDetailRecord where
  serverName : String
  cpuName : String
  timestamp : ℤ
  hi : ℤ
  timer : ℤ
  netTx : ℤ
  netRx : ℤ
  block : ℤ
  sched : ℤ
  deriving DecidableEq, Repr

/-- The record that `querySoftIrqDetailRecords` makes of a row, if no number is refused. -/
def softIrqDetailRecord (clock : Clock) (row : List String) : Option SoftIrqDetailRecord := do
  return {
    serverName := textAt row 0
    cpuName := textAt row 1
    timestamp := timeAt clock row 2
    hi := ← toI64 row 3
    timer := ← toI64 row 4
    netTx := ← toI64 row 5
    netRx := ← toI64 row 6
    block := ← toI64 row 7
    sched := ← toI64 row 8 }

/-- The counts of a record are those that were pushed. -/
structure SoftIrqDetailRecord.Exact (s : SoftIrqCounts) (r : SoftIrqDetailRecord) : Prop where
  hi : r.hi = s.hi.toInt
  timer : r.timer = s.timer.toInt
  netTx : r.netTx = s.netTx.toInt
  netRx : r.netRx = s.netRx.toInt
  block : r.block = s.block.toInt
  sched : r.sched = s.sched.toInt

/-! ### What becomes of a count -/

/-- A platform that rounds to `float` as IEEE 754 does, and on which a stream writes six
significant digits. -/
structure Platform.IsStandard (p : Platform) : Prop where
  single : ∀ n : Int64, p.single n.toInt = Digits.round Digits.halfEven 2 24 n.toInt
  print : ∀ q, p.print q = Digits.round Digits.halfEven 10 6 q

/-- What is stored of a count. -/
def keptCount (n : Int64) : ℤ :=
  nearest (Digits.round Digits.halfEven 10 6 (Digits.round Digits.halfEven 2 24 n.toInt))

/-- A count of at most six significant digits. -/
def SixDigits (n : Int64) : Prop := ∃ (m : ℤ) (k : ℕ), |m| < 10 ^ 6 ∧ n.toInt = m * 10 ^ k

/-- The counts that are read back have at most six significant digits. -/
structure SoftIrqCounts.Short (s : SoftIrqCounts) : Prop where
  hi : SixDigits s.hi
  timer : SixDigits s.timer
  netTx : SixDigits s.netTx
  netRx : SixDigits s.netRx
  block : SixDigits s.block
  sched : SixDigits s.sched

/-- A record holds what is kept of the counts of a CPU. -/
structure SoftIrqDetailRecord.Keeps (host : String) (s : SoftIrqCounts)
    (r : SoftIrqDetailRecord) : Prop where
  serverName : r.serverName = host
  cpuName : r.cpuName = s.cpu
  hi : r.hi = keptCount s.hi
  timer : r.timer = keptCount s.timer
  netTx : r.netTx = keptCount s.netTx
  netRx : r.netRx = keptCount s.netRx
  block : r.block = keptCount s.block
  sched : r.sched = keptCount s.sched

theorem isNearest_nearest : Digits.IsNearest nearest := by
  intro q
  unfold nearest
  split
  · have hle := Int.floor_le (-q + 1 / 2)
    have hlt := Int.lt_floor_add_one (-q + 1 / 2)
    push_cast
    rw [abs_le]
    constructor <;> linarith
  · have hle := Int.floor_le (q + 1 / 2)
    have hlt := Int.lt_floor_add_one (q + 1 / 2)
    rw [abs_le]
    constructor <;> linarith

theorem abs_toInt_le (n : Int64) : |(n.toInt : ℚ)| ≤ 2 ^ 63 := by
  have hle := n.le_toInt
  have hlt := n.toInt_lt
  rw [abs_le]
  constructor <;> exact_mod_cast (by omega)

/-- A count never leaves the range of its column. -/
theorem keptCount_mem_range (n : Int64) : -(2 ^ 63) ≤ keptCount n ∧ keptCount n < 2 ^ 63 := by
  have hsingle : |Digits.round Digits.halfEven 2 24 n.toInt| ≤
      (2 ^ 23 : ℤ) * (2 : ℕ) ^ (40 : ℤ) := by
    refine Digits.abs_round_le Digits.isNearest_halfEven (by decide) ?_ (by norm_num) ?_
    · norm_num
    · refine (abs_toInt_le n).trans_lt ?_
      norm_num
  have hprint : |Digits.round Digits.halfEven 10 6
      (Digits.round Digits.halfEven 2 24 n.toInt)| ≤ (922337 : ℤ) * (10 : ℕ) ^ (13 : ℤ) := by
    refine Digits.abs_round_le Digits.isNearest_halfEven (by decide) ?_ (by norm_num) ?_
    · norm_num
    · refine hsingle.trans_lt ?_
      norm_num
  have hkept : |keptCount n| ≤ 922337 * 10 ^ 13 := by
    refine isNearest_nearest.abs_le_of_abs_lt (hprint.trans_lt ?_)
    norm_num
  rw [abs_le] at hkept
  omega

/-- **A count is kept if and only if it has at most six significant digits.** -/
theorem keptCount_eq_iff (n : Int64) : keptCount n = n.toInt ↔ SixDigits n := by
  have hiff : Digits.Holds 10 6 (n.toInt : ℚ) ↔ SixDigits n :=
    Digits.holds_intCast_iff (by decide)
  have hround : Digits.round Digits.halfEven 10 6 (Digits.round Digits.halfEven 2 24 n.toInt) =
      n.toInt ↔ Digits.Holds 10 6 (n.toInt : ℚ) :=
    Digits.round_round_iff 2 24 Digits.isNearest_halfEven Digits.isNearest_halfEven (by decide)
      (by decide) (by decide) (by norm_num)
  refine ⟨fun hkept => ?_, fun hsix => ?_⟩
  · rcases lt_or_ge |n.toInt| (10 ^ 6) with hsmall | hlarge
    · exact ⟨n.toInt, 0, hsmall, by simp⟩
    · -- a large count is printed as an integer
      have hlargeQ : (10 : ℚ) ^ 6 ≤ |(n.toInt : ℚ)| := by exact_mod_cast hlarge
      have hmoved := Digits.abs_round_sub_le_mul (b := 2) Digits.isNearest_halfEven (by decide) 24
        (n.toInt : ℚ)
      have hsingle : (10 : ℚ) ^ 5 ≤ |Digits.round Digits.halfEven 2 24 n.toInt| := by
        have hdist := abs_sub_abs_le_abs_sub (n.toInt : ℚ)
          (Digits.round Digits.halfEven 2 24 n.toInt)
        rw [abs_sub_comm] at hdist
        norm_num at hmoved
        linarith
      obtain ⟨k, hk⟩ := Digits.exists_round_eq_intCast Digits.halfEven (b := 10) (p := 6)
        (by decide) (le_of_eq_of_le (by norm_num) hsingle)
      rw [keptCount, hk, nearest_intCast] at hkept
      rw [← hiff, ← hround, hk, hkept]
  · rw [keptCount, hround.mpr (hiff.mpr hsix), nearest_intCast]

/-- **A record is right if and only if its counts are short.** -/
theorem SoftIrqDetailRecord.Keeps.exact_iff {host : String} {s : SoftIrqCounts}
    {r : SoftIrqDetailRecord} (h : r.Keeps host s) : r.Exact s ↔ s.Short := by
  constructor
  · rintro ⟨hhi, htimer, hnetTx, hnetRx, hblock, hsched⟩
    exact ⟨(keptCount_eq_iff _).mp (h.hi ▸ hhi), (keptCount_eq_iff _).mp (h.timer ▸ htimer),
      (keptCount_eq_iff _).mp (h.netTx ▸ hnetTx), (keptCount_eq_iff _).mp (h.netRx ▸ hnetRx),
      (keptCount_eq_iff _).mp (h.block ▸ hblock), (keptCount_eq_iff _).mp (h.sched ▸ hsched)⟩
  · rintro ⟨hhi, htimer, hnetTx, hnetRx, hblock, hsched⟩
    exact ⟨h.hi.trans ((keptCount_eq_iff _).mpr hhi),
      h.timer.trans ((keptCount_eq_iff _).mpr htimer),
      h.netTx.trans ((keptCount_eq_iff _).mpr hnetTx),
      h.netRx.trans ((keptCount_eq_iff _).mpr hnetRx),
      h.block.trans ((keptCount_eq_iff _).mpr hblock),
      h.sched.trans ((keptCount_eq_iff _).mpr hsched)⟩

/-! ### What is stored and read -/

/-- The columns of `querySoftIrqDetailRecords`, in the order in which they are read. -/
def softirqReadColumns : List String :=
  ["server_name", "cpu_name", "timestamp", "hi", "timer", "net_tx", "net_rx", "block", "sched"]

section Stored

variable {p : Platform} {data : HostMonitoringData}

/-- What the counts of a CPU leave in these columns. -/
def softirqStored (p : Platform) (data : HostMonitoringData) (s : SoftIrqCounts) : List Value :=
  [.text data.hostName, .text s.cpu, timestampValue p data, .int (keptCount s.hi),
    .int (keptCount s.timer), .int (keptCount s.netTx), .int (keptCount s.netRx),
    .int (keptCount s.block), .int (keptCount s.sched)]

theorem stored_bigint_count (hp : p.IsStandard) (n : Int64) :
    bigint.stored (.num (p.print (p.single n.toInt))) = some (.int (keptCount n)) := by
  rw [hp.print, hp.single, stored, integer]
  exact if_pos (keptCount_mem_range n)

theorem length_rates (curr last : Fields) : (rates p curr last).length = curr.length := by
  simp [rates]

/-- The columns hold it. -/
theorem stored_softIrqInsert (hp : p.IsStandard) (hdata : data.Fits) {s : SoftIrqCounts}
    (hs : s.cpu.length ≤ 64) (prev : Fields) :
    softirqReadColumns.map (Table.stored .serverSoftirqDetail
      (softIrqInsert p data (s.message p) prev).row) = (softirqStored p data s).map some := by
  have hasked : askedColumns.map (softIrqInsert p data (s.message p) prev).row.get = _ :=
    get_askedColumns p data .serverSoftirqDetail (by simp [printed, length_rates, softIrqSample])
      (by decide)
  simp only [askedColumns, List.map_cons, List.map_nil, List.cons.injEq, and_true] at hasked
  obtain ⟨-, -, -, hname, htime⟩ := hasked
  simp only [softirqReadColumns, softirqStored, List.map_cons, List.map_nil, List.cons.injEq,
    and_true]
  and_intros
  · exact (Table.stored_eq rfl hname).trans (stored_varchar hdata.hostName)
  · exact (Table.stored_eq rfl rfl).trans (stored_varchar hs)
  · exact (Table.stored_eq rfl htime).trans (stored_timestampValue p data)
  iterate 6 exact (Table.stored_eq rfl rfl).trans (stored_bigint_count hp _)

/-- What is read from the row of a CPU. -/
theorem softIrqDetailRecord_stored (d : ExactDialect) (clock : Clock) (s : SoftIrqCounts) :
    ∃ r, softIrqDetailRecord clock ((softirqStored p data s).map d.fetch) = some r ∧
      r.Keeps data.hostName s := by
  obtain ⟨row, hrow⟩ : ∃ row, row = (softirqStored p data s).map d.fetch := ⟨_, rfl⟩
  rw [← hrow, softIrqDetailRecord, text_fetched hrow 0 rfl, text_fetched hrow 1 rfl,
    toI64_fetched hrow 3 rfl (keptCount_mem_range _),
    toI64_fetched hrow 4 rfl (keptCount_mem_range _),
    toI64_fetched hrow 5 rfl (keptCount_mem_range _),
    toI64_fetched hrow 6 rfl (keptCount_mem_range _),
    toI64_fetched hrow 7 rfl (keptCount_mem_range _),
    toI64_fetched hrow 8 rfl (keptCount_mem_range _)]
  exact ⟨_, rfl, rfl, rfl, rfl, rfl, rfl, rfl, rfl, rfl⟩

end Stored

/-! ### The round trip -/

section RoundTrip

variable (d : ExactDialect) (clock : Clock) (before after : Tables) (m : QueryManager)
  (h : HostManager) (l : LastSamples) (c : Received) (data : HostMonitoringData)
  (counts : List SoftIrqCounts) {cluster : String} {range : TimeRange} {size : ℕ}

/-- What is handed out once the statements of a push have been executed. -/
theorem handed_out_softIrq (hlease : m.lease = .acquired) (hp : m.platform.IsStandard)
    (hdata : (h.onDataReceived m.platform c.info c.identity c.row c.now).2 = some data)
    (hcounts : c.info.softIrq = counts.map (SoftIrqCounts.message m.platform))
    (hfits : data.Fits) (hcpu : ∀ s ∈ counts, s.cpu.length ≤ 64)
    (hrows : Inserted (writeToMysql m.platform l data).2 .serverSoftirqDetail before after)
    (hcluster : cluster = "" ∨ cluster = data.scope.clusterId)
    (hrange : validateTimeRange range = true)
    (hcovers : Covers d.toDialect m.platform range data) (hsize : 0 < size)
    (hall : (m.wanted d.toDialect after.toDatabase .serverSoftirqDetail
      ⟨data.scope.tenantId, data.scope.teamId, cluster⟩ data.hostName range).length ≤ size)
    (e : Execution d.toDialect after.rows (m.querySoftIrqDetailRecords
      ⟨data.scope.tenantId, data.scope.teamId, cluster⟩ data.hostName range 1 size)) :
    ∃ (n : ℤ) (texts new : Rows), e.result = .ok (.page n texts) ∧
      texts.Perm ((m.wanted d.toDialect before.toDatabase .serverSoftirqDetail
        ⟨data.scope.tenantId, data.scope.teamId, cluster⟩ data.hostName range).map
          (Row.texts d.toDialect softirqReadColumns) ++ new) ∧
      List.Forall₂ (fun s t => ∃ r, softIrqDetailRecord clock t = some r ∧
        r.Keeps c.info.hostID s) counts new := by
  obtain ⟨scope, hscope, -, rfl⟩ := HostManager.exists_scope_of_onDataReceived hdata
  obtain ⟨htenant, hteam, hclusterId⟩ := ne_empty_of_resolveWorkerScope hscope
  obtain ⟨hentries, -, -⟩ := forall₂_writeToMysql m.platform l
    (monitoringData m.platform c.info scope c.now (h.lastPerfSamples c.info.hostID)) htenant hteam
      hclusterId
  have hsoftirq : (monitoringData m.platform c.info scope c.now
      (h.lastPerfSamples c.info.hostID)).hostScore.info.softIrq =
        counts.map (SoftIrqCounts.message m.platform) := hcounts
  rw [hsoftirq, List.forall₂_map_left_iff] at hentries
  refine hrows.handed_out hentries (fun s hs prev row hstores => ⟨?_, ?_⟩) hlease
    ⟨htenant, hteam⟩ hrange hsize hall e
  · exact hstores.asked hfits (by simp [printed, length_rates, softIrqSample]) (by decide) rfl
      hcluster hcovers
  · have htexts := hstores.texts_eq d.toDialect (stored_softIrqInsert hp hfits (hcpu s hs) prev)
    exact htexts ▸ softIrqDetailRecord_stored d clock s

end RoundTrip

/-- **When the counts of a CPU survive the way into the table and back.** For every push,
whatever was kept of the counts before: once its statements have been executed, the query for
its scope, its host and a range with its time, on a page that holds all that is asked for,
hands out the rows of before and exactly one record for each CPU; and the counts of this
record are those that were pushed if and only if each of them has at most six significant
digits. -/
theorem softIrq_round_trip_iff (d : ExactDialect) (clock : Clock) (before after : Tables)
    (m : QueryManager) (hlease : m.lease = .acquired) (hp : m.platform.IsStandard)
    (h : HostManager) (l : LastSamples) (c : Received) (data : HostMonitoringData)
    (hdata : (h.onDataReceived m.platform c.info c.identity c.row c.now).2 = some data)
    (counts : List SoftIrqCounts)
    (hcounts : c.info.softIrq = counts.map (SoftIrqCounts.message m.platform))
    (hfits : data.Fits) (hcpu : ∀ s ∈ counts, s.cpu.length ≤ 64)
    (hrows : Inserted (writeToMysql m.platform l data).2 .serverSoftirqDetail before after)
    (cluster : String) (hcluster : cluster = "" ∨ cluster = data.scope.clusterId)
    (range : TimeRange) (hrange : validateTimeRange range = true)
    (hcovers : Covers d.toDialect m.platform range data) (size : ℕ) (hsize : 0 < size)
    (hall : (m.wanted d.toDialect after.toDatabase .serverSoftirqDetail
      ⟨data.scope.tenantId, data.scope.teamId, cluster⟩ data.hostName range).length ≤ size)
    (e : Execution d.toDialect after.rows (m.querySoftIrqDetailRecords
      ⟨data.scope.tenantId, data.scope.teamId, cluster⟩ data.hostName range 1 size)) :
    ∃ (n : ℤ) (texts new : Rows), e.result = .ok (.page n texts) ∧
      texts.Perm ((m.wanted d.toDialect before.toDatabase .serverSoftirqDetail
        ⟨data.scope.tenantId, data.scope.teamId, cluster⟩ data.hostName range).map
          (Row.texts d.toDialect softirqReadColumns) ++ new) ∧
      List.Forall₂ (fun s t => ∃ r, softIrqDetailRecord clock t = some r ∧
        r.serverName = c.info.hostID ∧ r.cpuName = s.cpu ∧ (r.Exact s ↔ s.Short)) counts new := by
  obtain ⟨n, texts, new, hresult, hperm, hnew⟩ := handed_out_softIrq d clock before after m
    h l c data counts hlease hp hdata hcounts hfits hcpu hrows hcluster hrange hcovers hsize hall e
  refine ⟨n, texts, new, hresult, hperm, hnew.imp ?_⟩
  rintro s t ⟨r, hr, hkeeps⟩
  exact ⟨r, hr, hkeeps.serverName, hkeeps.cpuName, hkeeps.exact_iff⟩

/-- A manager on a standard platform, with a connection. -/
def standardManager : QueryManager where
  platform :=
    { Platform.exact with
      single := Digits.round Digits.halfEven 2 24
      double := Digits.round Digits.halfEven 2 53
      print := Digits.round Digits.halfEven 10 6
      localTime := fun _ => "2024-01-01 00:00:00" }
  lease := .acquired

theorem isStandard_standardManager : standardManager.platform.IsStandard :=
  ⟨fun _ => rfl, fun _ => rfl⟩

/-- A CPU with only one kind of soft interrupts. -/
def onlyHi (n : Int64) : SoftIrqCounts := { cpu := "cpu0", hi := n }

/-- A push of its counts. -/
def onlyHiPush (n : Int64) : Received where
  info := { name := "web-01", softIrq := [(onlyHi n).message standardManager.platform] }
  identity := ⟨"worker-1", ""⟩
  row := some ⟨some "acme", some "ops", some "prod", 0, none⟩
  now := 1704067200000000000

/-- The record of the push. -/
def onlyHiData (n : Int64) : HostMonitoringData :=
  monitoringData standardManager.platform (onlyHiPush n).info ⟨"acme", "ops", "prod", 0⟩
    (onlyHiPush n).now {}

/-- Its row. -/
def onlyHiRow (n : Int64) : Row :=
  Table.serverSoftirqDetail.storedRow (softIrqInsert standardManager.platform (onlyHiData n)
    ((onlyHi n).message standardManager.platform) []).row 1

/-- The table with this row. -/
def onlyHiTables (n : Int64) (hrow : Row.declared (onlyHiRow n) = true) : Tables :=
  .single .serverSoftirqDetail [onlyHiRow n] (fun _ hr => List.mem_singleton.mp hr ▸ hrow)
    (List.nodup_singleton _) (by simp)

theorem declared_onlyHiRow_short : Row.declared (onlyHiRow 1500000) = true := by decide +kernel

theorem declared_onlyHiRow_long : Row.declared (onlyHiRow 1234567) = true := by decide +kernel

/-- The record of one and a half million interrupts is right. -/
theorem softIrq_round_trip_iff_short :
    Nonempty (Execution ExactDialect.reference.toDialect
        (onlyHiTables 1500000 declared_onlyHiRow_short).rows
        (standardManager.querySoftIrqDetailRecords ⟨"acme", "ops", "prod"⟩ "web-01"
          PagedQuery.newYear 1 (1 : ℕ))) ∧
      ∀ e : Execution ExactDialect.reference.toDialect
          (onlyHiTables 1500000 declared_onlyHiRow_short).rows
          (standardManager.querySoftIrqDetailRecords ⟨"acme", "ops", "prod"⟩ "web-01"
            PagedQuery.newYear 1 (1 : ℕ)),
        ∃ (n : ℤ) (t : List String) (r : SoftIrqDetailRecord), e.result = .ok (.page n [t]) ∧
          softIrqDetailRecord PerformanceRecord.newYearClock t = some r ∧
          r.Exact (onlyHi 1500000) := by
  refine ⟨PagedQuery.nonempty_execution_first_page _ _ rfl (by decide) (by decide) (by decide),
    fun e => ?_⟩
  obtain ⟨n, texts, new, hresult, hperm, hnew⟩ :=
    softIrq_round_trip_iff ExactDialect.reference PerformanceRecord.newYearClock .empty
      (onlyHiTables 1500000 declared_onlyHiRow_short) standardManager rfl
      isStandard_standardManager .init .init (onlyHiPush 1500000) (onlyHiData 1500000) rfl
      [onlyHi 1500000] rfl ⟨by decide, by decide, by decide, by decide⟩ (by decide)
      ⟨_, .refl _, .cons (stores_storedRow _ _ _) .nil⟩ "prod" (.inr rfl) PagedQuery.newYear
      (by decide) (by decide) 1 (by decide) (List.length_filter_le _ _) e
  obtain ⟨t, u, ⟨r, hr, -, -, hexact⟩, hnone, rfl⟩ := List.forall₂_cons_left_iff.mp hnew
  obtain rfl := List.forall₂_nil_left_iff.mp hnone
  obtain rfl := List.perm_singleton.mp hperm
  have hzero : SixDigits 0 := ⟨0, 0, by decide, rfl⟩
  exact ⟨n, t, r, hresult, hr,
    hexact.mpr ⟨⟨15, 5, by decide, rfl⟩, hzero, hzero, hzero, hzero, hzero⟩⟩

/-- **1234567 interrupts come back as 1234570.** -/
theorem seven_digits_rounded :
    Nonempty (Execution ExactDialect.reference.toDialect
        (onlyHiTables 1234567 declared_onlyHiRow_long).rows
        (standardManager.querySoftIrqDetailRecords ⟨"acme", "ops", "prod"⟩ "web-01"
          PagedQuery.newYear 1 (1 : ℕ))) ∧
      ∀ e : Execution ExactDialect.reference.toDialect
          (onlyHiTables 1234567 declared_onlyHiRow_long).rows
          (standardManager.querySoftIrqDetailRecords ⟨"acme", "ops", "prod"⟩ "web-01"
            PagedQuery.newYear 1 (1 : ℕ)),
        ∃ (n : ℤ) (t : List String) (r : SoftIrqDetailRecord), e.result = .ok (.page n [t]) ∧
          softIrqDetailRecord PerformanceRecord.newYearClock t = some r ∧
          (onlyHi 1234567).hi.toInt = 1234567 ∧ r.hi = 1234570 := by
  refine ⟨PagedQuery.nonempty_execution_first_page _ _ rfl (by decide) (by decide) (by decide),
    fun e => ?_⟩
  obtain ⟨n, texts, new, hresult, hperm, hnew⟩ :=
    handed_out_softIrq ExactDialect.reference PerformanceRecord.newYearClock .empty
      (onlyHiTables 1234567 declared_onlyHiRow_long) standardManager .init .init
      (onlyHiPush 1234567) (onlyHiData 1234567) [onlyHi 1234567] rfl isStandard_standardManager
      rfl rfl ⟨by decide, by decide, by decide, by decide⟩ (by decide)
      ⟨_, .refl _, .cons (stores_storedRow _ _ _) .nil⟩ (.inr rfl) (by decide) (by decide)
      (by decide) (List.length_filter_le _ _) e
  obtain ⟨t, u, ⟨r, hr, hkeeps⟩, hnone, rfl⟩ := List.forall₂_cons_left_iff.mp hnew
  obtain rfl := List.forall₂_nil_left_iff.mp hnone
  obtain rfl := List.perm_singleton.mp hperm
  have hkept : keptCount 1234567 = 1234570 := by decide +kernel
  exact ⟨n, t, r, hresult, hr, rfl, hkeeps.hi.trans hkept⟩

end MonitorSystem
