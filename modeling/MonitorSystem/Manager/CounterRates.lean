import Mathlib.Algebra.Order.Field.Basic
import Mathlib.Tactic.NormNum
import MonitorSystem.Manager.DetailSeries
import MonitorSystem.Manager.DetailTables

/-!
# The rates of the database instances

The rows of the MySQL and of the Redis instances carry rates that
`HostManager::writeToMysql` (`manager/src/HostManager.cpp`) computes from counters: how much a
counter has grown since the previous sample of the instance, per second. The two tables are
written in the same way (`Detail`), each from its own map of previous samples, so that the
rows of one instance are made of the reports of this instance alone (`Detail.rows_eq`), each of
them against the report before it.

`Derives` is what a reader of the table may rely on: added up over the time, a rate gives back
what its counter has gained.
-/

namespace MonitorSystem

open Sql MysqlWriter

/-! ### Tables of instances -/

/-- What the rows of an instance know of the record with which it is reported. -/
def HostMonitoringData.heading (data : HostMonitoringData) : String × WorkerScope × ℤ :=
  (data.hostName, data.scope, data.hostScore.timestamp)

/-- **A table of instances**, with how it is written: which instances a record reports, by which
name each of them is known, what is remembered of it and which row is made of it. -/
structure Detail (α τ : Type) where
  table : Table
  infos : MonitorInfo → List α
  key : α → String
  sample : HostMonitoringData → α → τ
  insert : Platform → HostMonitoringData → α → τ → Insert
  last : LastSamples → String → String → τ
  written : ∀ (p : Platform) (l : LastSamples) (data : HostMonitoringData), data.Kept →
    (writeToMysql p l data).2.filter (fun i => i.table = table) =
        (writeDetails key (sample data) (insert p data) (last l data.hostName)
          (infos data.hostScore.info)).2 ∧
      last (writeToMysql p l data).1 = Function.update (last l) data.hostName
        (writeDetails key (sample data) (insert p data) (last l data.hostName)
          (infos data.hostScore.info)).1
  named : ∀ (p : Platform) (data : HostMonitoringData) (a : α) (prev : τ),
    (insert p data a prev).row.get "server_name" = .text data.hostName ∧
      (insert p data a prev).row.get "instance" = .text (key a)
  heading : ∀ (p : Platform) (data data' : HostMonitoringData) (a : α) (prev : τ),
    data.heading = data'.heading →
      insert p data a prev = insert p data' a prev ∧ sample data a = sample data' a

/-- The instances of MySQL. -/
def mysqlDetail : Detail MysqlInfo MysqlDetailSample where
  table := .serverMysqlDetail
  infos := (·.mysqlInfo)
  key m := instanceKey m.instanceName m.host m.port
  sample := mysqlSample
  insert := mysqlInsert
  last := (·.lastMysqlSamples)
  written p l data h := by
    have hscope := h.not_dropped
    exact ⟨filter_writeToMysql p l data hscope .serverMysqlDetail, by
      rw [writeToMysql, if_neg hscope]⟩
  named p data m prev := by
    simp only [mysqlInsert, detailRow, insertInto, scopeColumns, scopeValues, List.cons_append,
      List.nil_append, List.zip_cons_cons]
    exact ⟨rfl, rfl⟩
  heading p data data' m prev h := by
    simp only [HostMonitoringData.heading, Prod.mk.injEq] at h
    obtain ⟨hname, hscope, htime⟩ := h
    simp only [mysqlInsert, mysqlSample, detailRow, scopeValues, timestampValue, hname, hscope,
      htime, and_self]

/-- The instances of Redis. -/
def redisDetail : Detail RedisInfo RedisDetailSample where
  table := .serverRedisDetail
  infos := (·.redisInfo)
  key r := instanceKey r.instanceName r.host r.port
  sample := redisSample
  insert := redisInsert
  last := (·.lastRedisSamples)
  written p l data h := by
    have hscope := h.not_dropped
    exact ⟨filter_writeToMysql p l data hscope .serverRedisDetail, by
      rw [writeToMysql, if_neg hscope]⟩
  named p data r prev := by
    simp only [redisInsert, detailRow, insertInto, scopeColumns, scopeValues, List.cons_append,
      List.nil_append, List.zip_cons_cons]
    exact ⟨rfl, rfl⟩
  heading p data data' r prev h := by
    simp only [HostMonitoringData.heading, Prod.mk.injEq] at h
    obtain ⟨hname, hscope, htime⟩ := h
    simp only [redisInsert, redisSample, detailRow, scopeValues, timestampValue, hname, hscope,
      htime, and_self]

/-! ### The rows of one instance -/

namespace Detail

variable {α τ : Type} (D : Detail α τ) (p : Platform) (l : LastSamples)
  (records : List HostMonitoringData) (host name : String)

/-- The reports of an instance of a host, in the order of the records. -/
def reports : List (HostMonitoringData × α) :=
  records.flatMap fun data =>
    if data.Kept ∧ data.hostName = host then
      ((D.infos data.hostScore.info).filter fun a => D.key a = name).map (data, ·)
    else []

/-- **The rows of an instance of a host**, among all that is written. -/
def rows : List Insert :=
  (writeAll p l records).flatMap fun w => w.2.filter fun i =>
    i.table = D.table ∧ i.row.get "server_name" = .text host ∧ i.row.get "instance" = .text name

/-- A table of instances is a detail table, in which an instance is named by `instance`. -/
def toSeries : DetailSeries α τ where
  table := D.table
  column := "instance"
  infos := D.infos
  key := D.key
  sample := D.sample
  insert := D.insert
  last := D.last
  written := D.written
  named := D.named

variable {p l host name}

/-- **The rows of an instance are made of its reports alone**, each of them against the report
before it. -/
theorem rows_eq :
    D.rows p l records host name =
      Successive.run (fun r => D.sample r.1 r.2) (fun r => D.insert p r.1 r.2)
        (D.last l host name) (D.reports records host name) :=
  D.toSeries.rows_eq records

end Detail

/-! ### The columns that are derived from counters -/

/-- What the gain of a counter is divided by. -/
inductive Per where
  | second
  | sample
  deriving DecidableEq, Repr

/-- How much of it there is from one record to another. -/
def Per.amount : Per → HostMonitoringData → HostMonitoringData → ℚ
  | .second, before, now =>
    ((now.hostScore.timestamp : ℚ) - before.hostScore.timestamp) / 1000000000
  | .sample, _, _ => 1

theorem Per.amount_pos (per : Per) {before now : HostMonitoringData}
    (h : before.hostScore.timestamp < now.hostScore.timestamp) : 0 < per.amount before now := by
  cases per with
  | second =>
    have hlt : (before.hostScore.timestamp : ℚ) < now.hostScore.timestamp := by exact_mod_cast h
    exact div_pos (sub_pos.mpr hlt) (by norm_num)
  | sample => exact one_pos

/-- The gain of a counter, zero where it has not grown. -/
def gain (before now : ℕ) (amount : ℚ) : ℚ :=
  if amount ≤ 0 ∨ now < before then 0 else (now - before) / amount

theorem gain_nonneg (before now : ℕ) (amount : ℚ) : 0 ≤ gain before now amount := by
  unfold gain
  split
  · exact le_rfl
  · next h =>
    obtain ⟨hamount, hle⟩ := not_or.mp h
    have hle : (before : ℚ) ≤ now := by exact_mod_cast not_lt.mp hle
    exact div_nonneg (sub_nonneg.mpr hle) (not_le.mp hamount).le

/-- A gain accounts for what the counter has gained. -/
theorem gain_mul {before now : ℕ} {amount : ℚ} (hamount : 0 < amount) (h : before ≤ now) :
    gain before now amount * amount = now - before := by
  rw [gain, if_neg (by simp [hamount, h]), div_mul_cancel₀ _ hamount.ne']

/-- A rate of an instance, zero without a previous sample. -/
def rateSince (p : Platform) (initialized : Bool) (time lastTime : ℤ) (now before : UInt64) : ℚ :=
  let seconds := if initialized then secondsBetween p time lastTime else 0
  if initialized then counterRate p now before seconds else 0

/-- A growth of an instance, zero without a previous sample. -/
def growthSince (p : Platform) (initialized : Bool) (now before : UInt64) : ℚ :=
  if initialized then counterDelta p now before else 0

/-- The difference of two counters. -/
theorem toNat_sub_cast {now before : UInt64} (h : ¬ now < before) :
    ((now - before).toNat : ℚ) = now.toNat - before.toNat := by
  have hle : before ≤ now := UInt64.not_lt.mp h
  rw [UInt64.toNat_sub_of_le _ _ hle, Nat.cast_sub (UInt64.le_iff_toNat_le.mp hle)]

theorem rateSince_exact (time lastTime : ℤ) (now before : UInt64) :
    rateSince .exact true time lastTime now before =
      gain before.toNat now.toNat (((time : ℚ) - lastTime) / 1000000000) := by
  by_cases h : now < before
  · exact (if_pos (.inr h)).trans (if_pos (.inr (UInt64.lt_iff_toNat_lt.mp h))).symm
  · rw [gain, ← toNat_sub_cast h]
    exact if_congr (or_congr Iff.rfl UInt64.lt_iff_toNat_lt) rfl rfl

theorem growthSince_exact (now before : UInt64) :
    growthSince .exact true now before = gain before.toNat now.toNat 1 := by
  by_cases h : now < before
  · exact (if_pos h).trans (if_pos (.inr (UInt64.lt_iff_toNat_lt.mp h))).symm
  · have hgain : ¬ ((1 : ℚ) ≤ 0 ∨ now.toNat < before.toNat) := by
      rw [← UInt64.lt_iff_toNat_lt]
      simpa using h
    rw [gain, if_neg hgain, div_one, ← toNat_sub_cast h]
    exact if_neg h

theorem rateSince_nonneg (initialized : Bool) (time lastTime : ℤ) (now before : UInt64) :
    0 ≤ rateSince .exact initialized time lastTime now before := by
  cases initialized with
  | false => exact le_rfl
  | true => exact rateSince_exact time lastTime now before ▸ gain_nonneg _ _ _

theorem growthSince_nonneg (initialized : Bool) (now before : UInt64) :
    0 ≤ growthSince .exact initialized now before := by
  cases initialized with
  | false => exact le_rfl
  | true => exact growthSince_exact now before ▸ gain_nonneg _ _ _

/-- **A column that is derived from a counter**: what it holds against a previous report, and
that it never holds a negative number. -/
structure Derived {α τ : Type} (D : Detail α τ) where
  column : String
  counter : α → ℕ
  per : Per
  made : ∀ (before now : HostMonitoringData) (a b : α), counter a < 2 ^ 64 → counter b < 2 ^ 64 →
    (D.insert .exact now b (D.sample before a)).row.get column =
      .num (gain (counter a) (counter b) (per.amount before now))
  nonneg : ∀ (data : HostMonitoringData) (a : α) (prev : τ),
    ∃ q, 0 ≤ q ∧ (D.insert .exact data a prev).row.get column = .num q

/-- The derived columns of a row of MySQL. -/
theorem get_mysqlInsert (p : Platform) (data : HostMonitoringData) (m : MysqlInfo)
    (last : MysqlDetailSample) :
    ["qps", "tps", "slow_queries_rate", "innodb_row_lock_waits_rate"].map
        (mysqlInsert p data m last).row.get =
      [(m.questions, last.questions),
        (m.comCommit + m.comRollback, last.comCommit + last.comRollback),
        (m.slowQueries, last.slowQueries), (m.innodbRowLockWaits, last.innodbRowLockWaits)].map
        fun c => .num (p.print
          (rateSince p last.initialized data.hostScore.timestamp last.timestamp c.1 c.2)) := by
  simp only [mysqlInsert, detailRow, insertInto, scopeColumns, scopeValues, printed,
    List.cons_append, List.nil_append, List.map_cons, List.map_nil, List.zip_cons_cons]
  rfl

/-- The derived columns of a row of Redis. -/
theorem get_redisInsert (p : Platform) (data : HostMonitoringData) (r : RedisInfo)
    (last : RedisDetailSample) :
    ["commands_per_sec", "net_input_bytes_per_sec", "net_output_bytes_per_sec"].map
        (redisInsert p data r last).row.get =
      [(r.totalCommandsProcessed, last.totalCommandsProcessed),
        (r.totalNetInputBytes, last.totalNetInputBytes),
        (r.totalNetOutputBytes, last.totalNetOutputBytes)].map
        (fun c => .num (p.print
          (rateSince p last.initialized data.hostScore.timestamp last.timestamp c.1 c.2))) ∧
    (redisInsert p data r last).row.get "slowlog_growth" =
      .num (p.print (growthSince p last.initialized r.slowlogLen last.slowlogLen)) := by
  simp only [redisInsert, detailRow, insertInto, scopeColumns, scopeValues, printed,
    List.cons_append, List.nil_append, List.map_cons, List.map_nil, List.zip_cons_cons]
  exact ⟨rfl, rfl⟩

/-- A column that holds a rate. -/
def Derived.rate {α τ : Type} {D : Detail α τ} (column : String) (counter : α → ℕ)
    (now : α → UInt64) (before : τ → UInt64) (initialized : τ → Bool) (timestamp : τ → ℤ)
    (hcounter : ∀ a, counter a < 2 ^ 64 → (now a).toNat = counter a)
    (hsample : ∀ data a, initialized (D.sample data a) = true ∧
      timestamp (D.sample data a) = data.hostScore.timestamp ∧ before (D.sample data a) = now a)
    (hget : ∀ p data a prev, (D.insert p data a prev).row.get column = .num (p.print
      (rateSince p (initialized prev) data.hostScore.timestamp (timestamp prev) (now a)
        (before prev)))) : Derived D where
  column := column
  counter := counter
  per := .second
  made data data' a b ha hb := by
    obtain ⟨hinit, htime, hbefore⟩ := hsample data a
    rw [hget, hinit, htime, hbefore, rateSince_exact, hcounter a ha, hcounter b hb]
    rfl
  nonneg data a prev := ⟨_, rateSince_nonneg _ _ _ _ _, hget .exact data a prev⟩

/-- `qps`. -/
def qps : Derived mysqlDetail :=
  .rate "qps" (·.questions.toNat) (·.questions) (·.questions) (·.initialized) (·.timestamp)
    (fun _ _ => rfl) (fun _ _ => ⟨rfl, rfl, rfl⟩)
    fun p data m last => (List.cons.inj (get_mysqlInsert p data m last)).1

/-- `tps`, of the commits and the rollbacks together. -/
def tps : Derived mysqlDetail :=
  .rate "tps" (fun m => m.comCommit.toNat + m.comRollback.toNat)
    (fun m => m.comCommit + m.comRollback) (fun s => s.comCommit + s.comRollback)
    (·.initialized) (·.timestamp) (fun _ h => (UInt64.toNat_add _ _).trans (Nat.mod_eq_of_lt h))
    (fun _ _ => ⟨rfl, rfl, rfl⟩)
    fun p data m last => (List.cons.inj (List.cons.inj (get_mysqlInsert p data m last)).2).1

/-- `slow_queries_rate`. -/
def slowQueriesRate : Derived mysqlDetail :=
  .rate "slow_queries_rate" (·.slowQueries.toNat) (·.slowQueries) (·.slowQueries)
    (·.initialized) (·.timestamp) (fun _ _ => rfl) (fun _ _ => ⟨rfl, rfl, rfl⟩)
    fun p data m last =>
      (List.cons.inj (List.cons.inj (List.cons.inj (get_mysqlInsert p data m last)).2).2).1

/-- `innodb_row_lock_waits_rate`. -/
def rowLockWaitsRate : Derived mysqlDetail :=
  .rate "innodb_row_lock_waits_rate" (·.innodbRowLockWaits.toNat) (·.innodbRowLockWaits)
    (·.innodbRowLockWaits) (·.initialized) (·.timestamp) (fun _ _ => rfl)
    (fun _ _ => ⟨rfl, rfl, rfl⟩)
    fun p data m last => (List.cons.inj (List.cons.inj (List.cons.inj
      (List.cons.inj (get_mysqlInsert p data m last)).2).2).2).1

/-- `commands_per_sec`. -/
def commandsPerSec : Derived redisDetail :=
  .rate "commands_per_sec" (·.totalCommandsProcessed.toNat) (·.totalCommandsProcessed)
    (·.totalCommandsProcessed) (·.initialized) (·.timestamp) (fun _ _ => rfl)
    (fun _ _ => ⟨rfl, rfl, rfl⟩)
    fun p data r last => (List.cons.inj (get_redisInsert p data r last).1).1

/-- `net_input_bytes_per_sec`. -/
def netInputBytesPerSec : Derived redisDetail :=
  .rate "net_input_bytes_per_sec" (·.totalNetInputBytes.toNat) (·.totalNetInputBytes)
    (·.totalNetInputBytes) (·.initialized) (·.timestamp) (fun _ _ => rfl)
    (fun _ _ => ⟨rfl, rfl, rfl⟩)
    fun p data r last => (List.cons.inj (List.cons.inj (get_redisInsert p data r last).1).2).1

/-- `net_output_bytes_per_sec`. -/
def netOutputBytesPerSec : Derived redisDetail :=
  .rate "net_output_bytes_per_sec" (·.totalNetOutputBytes.toNat) (·.totalNetOutputBytes)
    (·.totalNetOutputBytes) (·.initialized) (·.timestamp) (fun _ _ => rfl)
    (fun _ _ => ⟨rfl, rfl, rfl⟩)
    fun p data r last =>
      (List.cons.inj (List.cons.inj (List.cons.inj (get_redisInsert p data r last).1).2).2).1

/-- `slowlog_growth`, from one sample to the next. -/
def slowlogGrowth : Derived redisDetail where
  column := "slowlog_growth"
  counter r := r.slowlogLen.toNat
  per := .sample
  made before now a b _ _ :=
    ((get_redisInsert .exact now b (redisSample before a)).2).trans
      (congrArg Value.num (growthSince_exact b.slowlogLen a.slowlogLen))
  nonneg data a prev := ⟨_, growthSince_nonneg _ _ _, (get_redisInsert .exact data a prev).2⟩

/-! ### What a derived column adds up to -/

/-- The number in a column. -/
def numberAt (row : Row) (column : String) : ℚ := ((row.get column).rat?).getD 0

/-- **What a reader may rely on** in the rows that are made of some reports of an instance. -/
structure Derives {α τ : Type} {D : Detail α τ} (c : Derived D)
    (reports : List (HostMonitoringData × α)) (rows : List Insert) : Prop where
  length : rows.length = reports.length
  nonneg : ∀ i ∈ rows, ∃ q, 0 ≤ q ∧ i.row.get c.column = .num q
  fallen : ∀ r s i, (r, s, i) ∈ Successive.steps reports rows →
    c.counter s.2 < c.counter r.2 → i.row.get c.column = .num 0
  stopped : c.per = .second → ∀ r s i, (r, s, i) ∈ Successive.steps reports rows →
    s.1.hostScore.timestamp ≤ r.1.hostScore.timestamp → i.row.get c.column = .num 0
  total : ∀ hne : reports ≠ [],
    reports.IsChain (fun r s => r.1.hostScore.timestamp < s.1.hostScore.timestamp) →
    reports.IsChain (fun r s => c.counter r.2 ≤ c.counter s.2) →
    ((Successive.steps reports rows).map fun s =>
        numberAt s.2.2.row c.column * c.per.amount s.1.1 s.2.1.1).sum =
      c.counter (reports.getLast hne).2 - c.counter (reports.head hne).2

/-- **Instances do not influence each other**: the rows of an instance depend on what is
remembered of it and on what is reported of it. -/
def Detail.Independent {α τ : Type} (D : Detail α τ) (p : Platform) : Prop :=
  ∀ (host name : String) (l l' : LastSamples) (records records' : List HostMonitoringData),
    D.last l host name = D.last l' host name →
    (D.reports records host name).map (fun r => (r.1.heading, r.2)) =
      (D.reports records' host name).map (fun r => (r.1.heading, r.2)) →
    D.rows p l records host name = D.rows p l' records' host name

section Derives

variable {α τ : Type} {D : Detail α τ}

theorem Detail.independent (D : Detail α τ) (p : Platform) : D.Independent p := by
  intro host name l l' records records' hlast hreports
  rw [D.rows_eq, D.rows_eq, hlast]
  clear hlast
  generalize D.reports records host name = reports at *
  generalize D.reports records' host name = reports' at *
  generalize D.last l' host name = last at *
  induction reports generalizing reports' last with
  | nil =>
    obtain rfl := List.map_eq_nil_iff.mp hreports.symm
    rfl
  | cons r reports ih =>
    cases reports' with
    | nil => cases hreports
    | cons s reports' =>
      obtain ⟨hhead, htail⟩ := List.cons.inj hreports
      obtain ⟨hheading, hinfo⟩ := Prod.mk.inj hhead
      obtain ⟨hinsert, hsample⟩ := D.heading p r.1 s.1 r.2 last hheading
      rw [Successive.run, Successive.run, hinsert, hsample, hinfo, ih reports' htail]

/-- **What the rows of an instance hold in a derived column.** -/
theorem derives (c : Derived D) (l : LastSamples) (records : List HostMonitoringData)
    (host name : String) (hcounter : ∀ r ∈ D.reports records host name, c.counter r.2 < 2 ^ 64) :
    Derives c (D.reports records host name) (D.rows .exact l records host name) := by
  rw [D.rows_eq]
  have hmade : ∀ r ∈ D.reports records host name, ∀ s ∈ D.reports records host name,
      (D.insert .exact s.1 s.2 (D.sample r.1 r.2)).row.get c.column =
        .num (gain (c.counter r.2) (c.counter s.2) (c.per.amount r.1 s.1)) :=
    fun r hr s hs => c.made r.1 s.1 r.2 s.2 (hcounter r hr) (hcounter s hs)
  constructor
  · exact Successive.length_run _ _
  · intro i hi
    obtain ⟨r, -, prev, rfl⟩ := Successive.mem_run hi
    exact c.nonneg r.1 r.2 prev
  · intro r s i hstep hfallen
    obtain ⟨hr, hs, rfl⟩ := Successive.mem_steps_run hstep
    rw [hmade r hr s hs, gain, if_pos (.inr hfallen)]
  · intro hper r s i hstep htime
    obtain ⟨hr, hs, rfl⟩ := Successive.mem_steps_run hstep
    have hle : (s.1.hostScore.timestamp : ℚ) ≤ r.1.hostScore.timestamp := by exact_mod_cast htime
    have hamount : c.per.amount r.1 s.1 ≤ 0 := by
      rw [hper]
      exact div_nonpos_of_nonpos_of_nonneg (sub_nonpos.mpr hle) (by norm_num)
    rw [hmade r hr s hs, gain, if_pos (.inl hamount)]
  · intro hne htime hgrow
    rw [List.isChain_iff_getElem] at htime hgrow
    refine Successive.sum_steps (r := fun r s =>
      r.1.hostScore.timestamp < s.1.hostScore.timestamp ∧ c.counter r.2 ≤ c.counter s.2)
      (fun r => (c.counter r.2 : ℚ)) hne
      (List.isChain_iff_getElem.mpr fun k hk => ⟨htime k hk, hgrow k hk⟩) ?_
    rintro r hr s hs ⟨hlt, hle⟩
    have hnumber : numberAt (D.insert .exact s.1 s.2 (D.sample r.1 r.2)).row c.column =
        gain (c.counter r.2) (c.counter s.2) (c.per.amount r.1 s.1) := by
      rw [numberAt, hmade r hr s hs]
      rfl
    rw [hnumber, gain_mul (c.per.amount_pos hlt) hle]

end Derives

/-- **The derived rates add up to what their counters have gained**, for each instance by
itself. -/
theorem rates_telescope (l : LastSamples) (records : List HostMonitoringData) (host name : String)
    (hmax : ∀ r ∈ mysqlDetail.reports records host name,
      r.2.comCommit.toNat + r.2.comRollback.toNat < 2 ^ 64) :
    (∀ c ∈ [qps, tps, slowQueriesRate, rowLockWaitsRate],
      Derives c (mysqlDetail.reports records host name)
        (mysqlDetail.rows .exact l records host name)) ∧
    (∀ c ∈ [commandsPerSec, netInputBytesPerSec, netOutputBytesPerSec, slowlogGrowth],
      Derives c (redisDetail.reports records host name)
        (redisDetail.rows .exact l records host name)) ∧
    mysqlDetail.Independent .exact ∧ redisDetail.Independent .exact := by
  refine ⟨?_, ?_, Detail.independent _ _, Detail.independent _ _⟩
  · simp only [List.forall_mem_cons, List.not_mem_nil, false_imp_iff, implies_true, and_true]
    exact ⟨derives _ _ _ _ _ fun r _ => r.2.questions.toNat_lt, derives _ _ _ _ _ hmax,
      derives _ _ _ _ _ fun r _ => r.2.slowQueries.toNat_lt,
      derives _ _ _ _ _ fun r _ => r.2.innodbRowLockWaits.toNat_lt⟩
  · simp only [List.forall_mem_cons, List.not_mem_nil, false_imp_iff, implies_true, and_true]
    exact ⟨derives _ _ _ _ _ fun r _ => r.2.totalCommandsProcessed.toNat_lt,
      derives _ _ _ _ _ fun r _ => r.2.totalNetInputBytes.toNat_lt,
      derives _ _ _ _ _ fun r _ => r.2.totalNetOutputBytes.toNat_lt,
      derives _ _ _ _ _ fun r _ => r.2.slowlogLen.toNat_lt⟩

/-- A record of a web server with one instance of MySQL, at some second. -/
def instanceRecord (second : ℤ) (m : MysqlInfo) : HostMonitoringData :=
  monitoringData .exact { name := "web-01", mysqlInfo := [m] }
    ⟨"acme", "ops", "prod", 1⟩ (second * 1000000000) default

/-- The two reports of an instance that answers ten queries in four seconds: they are made into
two rows, whose rates give back the ten queries. -/
theorem rates_telescope_instanceRecord :
    (Derives qps
      (mysqlDetail.reports
        [instanceRecord 1 { questions := 5 }, instanceRecord 5 { questions := 15 }]
        "web-01" "unknown")
      (mysqlDetail.rows .exact .init
        [instanceRecord 1 { questions := 5 }, instanceRecord 5 { questions := 15 }]
        "web-01" "unknown")) ∧
    (mysqlDetail.rows .exact .init [instanceRecord 1 { questions := 5 },
      instanceRecord 5 { questions := 15 }] "web-01" "unknown").map
        (numberAt ·.row "qps") = [0, 5 / 2] :=
  ⟨(rates_telescope .init
    [instanceRecord 1 { questions := 5 }, instanceRecord 5 { questions := 15 }] "web-01" "unknown"
    (by decide +kernel)).1 qps List.mem_cons_self, by decide +kernel⟩

end MonitorSystem
