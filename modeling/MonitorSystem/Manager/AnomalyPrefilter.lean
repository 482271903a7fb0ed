import MonitorSystem.Manager.AnomalyRecords
import MonitorSystem.Manager.QueryPages

/-!
# Whether the statements select what the classification reports

Every test of `queryAnomalyRecords` is written twice: in the condition of a statement, and
again in memory (`Scan.checks`). A row that the statement does not select is not classified,
so that the two had better agree. `Scan.alarm` is the condition of the statement on exact
values, and `Scan.Overlooked` what only the classification sees.

`QueryManager.transparent_iff` says when the preselection changes nothing: if and only if no row
without an alarm is overlooked. A replication lag without `replication_configured` is one way
to be overlooked, a flag that is neither zero nor one another.
-/

namespace MonitorSystem

open Sql Oracle

/-! ### The tables that are scanned -/

namespace Flt

/-- The threshold is a number. -/
def Finite (t : Flt) : Prop := ∃ q, t = .finite q

end Flt

/-- All the thresholds of a request. -/
def AnomalyThreshold.values (t : AnomalyThreshold) : List Flt :=
  [t.cpuThreshold, t.memoryThreshold, t.diskThreshold, t.changeRateThreshold,
    t.mysqlConnectionThreshold, t.mysqlReplicationLagThreshold, t.mysqlSlowQueryRateThreshold,
    t.mysqlLockWaitRateThreshold, t.mysqlBufferPoolHitThreshold, t.redisConnectionThreshold,
    t.redisMemoryThreshold, t.redisHitRateThreshold, t.redisReplicationLagThreshold,
    t.redisSlowlogGrowthThreshold]

/-- All the thresholds are numbers. -/
def AnomalyThreshold.Finite (t : AnomalyThreshold) : Prop := ∀ x ∈ t.values, x.Finite

namespace Scan

/-- The columns that are declared `FLOAT` or `BIGINT UNSIGNED`. -/
def metrics : Scan → List String
  | .performance => ["cpu_percent", "mem_used_percent", "disk_util_percent", "cpu_percent_rate",
      "mem_used_percent_rate"]
  | .mysql => ["connection_used_percent", "replication_lag_seconds", "slow_queries_rate",
      "innodb_row_lock_waits_rate", "innodb_buffer_pool_hit_percent"]
  | .redis => ["connection_used_percent", "memory_used_percent", "keyspace_hit_percent",
      "master_last_io_seconds_ago", "rejected_connections", "slowlog_growth"]

/-- The columns that are declared `TINYINT(1)`. -/
def flags : Scan → List String
  | .performance => []
  | .mysql => ["up", "replication_configured"]
  | .redis => ["up", "replication_configured", "master_link_up"]

/-- The columns of a row are as declared. -/
structure Measured (s : Scan) (r : Row) : Prop where
  metric : ∀ c ∈ s.metrics, IsMetric (r.get c)
  flag : ∀ c ∈ s.flags, IsFlag (r.get c)

end Scan

/-- **The contents of the tables**, with the types of the columns that are scanned. Each of
these columns has a default, and none of them is `NOT NULL`. -/
structure AnomalyTables extends Tables where
  measured : ∀ s : Scan, ∀ r ∈ rows s.table, s.Measured r

/-! ### The tests and the alarms -/

/-- `column > ?`, on exact values. -/
def isOver (t : Flt) (v : Value) : Bool := (v.rat?.map t.exceededBy).getD false

/-- `ABS(column) > ?`, on exact values. -/
def isAbsOver (t : Flt) (v : Value) : Bool := (v.rat?.map fun q => t.exceededBy |q|).getD false

/-- `column < ?`, on exact values. -/
def isUnder (t : Flt) (v : Value) : Bool := (v.rat?.map t.above).getD false

namespace Scan

variable (threshold : AnomalyThreshold)

/-- The tests of the classification, on the values of a row. -/
def tests : Scan → Row → List Bool
  | .performance, r =>
    [threshold.cpuThreshold.exceededBy (number (r.get "cpu_percent")),
      threshold.memoryThreshold.exceededBy (number (r.get "mem_used_percent")),
      threshold.diskThreshold.exceededBy (number (r.get "disk_util_percent")),
      threshold.changeRateThreshold.exceededBy |number (r.get "cpu_percent_rate")|,
      threshold.changeRateThreshold.exceededBy |number (r.get "mem_used_percent_rate")|]
  | .mysql, r =>
    [! decide (r.get "up" = .int 1),
      threshold.mysqlConnectionThreshold.exceededBy (number (r.get "connection_used_percent")),
      threshold.mysqlReplicationLagThreshold.exceededBy (number (r.get "replication_lag_seconds")),
      threshold.mysqlSlowQueryRateThreshold.exceededBy (number (r.get "slow_queries_rate")),
      threshold.mysqlLockWaitRateThreshold.exceededBy
        (number (r.get "innodb_row_lock_waits_rate")),
      0 < number (r.get "innodb_buffer_pool_hit_percent") &&
        threshold.mysqlBufferPoolHitThreshold.above
          (number (r.get "innodb_buffer_pool_hit_percent"))]
  | .redis, r =>
    [! decide (r.get "up" = .int 1),
      threshold.redisConnectionThreshold.exceededBy (number (r.get "connection_used_percent")),
      threshold.redisMemoryThreshold.exceededBy (number (r.get "memory_used_percent")),
      0 < number (r.get "keyspace_hit_percent") &&
        threshold.redisHitRateThreshold.above (number (r.get "keyspace_hit_percent")),
      decide (r.get "replication_configured" = .int 1) &&
        ! decide (r.get "master_link_up" = .int 1),
      threshold.redisReplicationLagThreshold.exceededBy
        (number (r.get "master_last_io_seconds_ago")),
      0 < number (r.get "rejected_connections"),
      threshold.redisSlowlogGrowthThreshold.exceededBy (number (r.get "slowlog_growth"))]

/-- The columns that a test is about, in the statement or in memory. -/
def reads : Scan → List (List String)
  | .performance => [["cpu_percent"], ["mem_used_percent"], ["disk_util_percent"],
      ["cpu_percent_rate"], ["mem_used_percent_rate"]]
  | .mysql => [["up"], ["connection_used_percent"],
      ["replication_configured", "replication_lag_seconds"], ["slow_queries_rate"],
      ["innodb_row_lock_waits_rate"], ["innodb_buffer_pool_hit_percent"]]
  | .redis => [["up"], ["connection_used_percent"], ["memory_used_percent"],
      ["keyspace_hit_percent"], ["replication_configured", "master_link_up"],
      ["master_last_io_seconds_ago"], ["rejected_connections"], ["slowlog_growth"]]

/-- **The alarm of the statement**, on the values of a row. -/
def alarm : Scan → Row → Bool
  | .performance, r =>
    isOver threshold.cpuThreshold (r.get "cpu_percent") ||
      isOver threshold.memoryThreshold (r.get "mem_used_percent") ||
      isOver threshold.diskThreshold (r.get "disk_util_percent") ||
      isAbsOver threshold.changeRateThreshold (r.get "cpu_percent_rate") ||
      isAbsOver threshold.changeRateThreshold (r.get "mem_used_percent_rate")
  | .mysql, r =>
    decide (r.get "up" = .int 0) ||
      isOver threshold.mysqlConnectionThreshold (r.get "connection_used_percent") ||
      (decide (r.get "replication_configured" = .int 1) &&
        isOver threshold.mysqlReplicationLagThreshold (r.get "replication_lag_seconds")) ||
      isOver threshold.mysqlSlowQueryRateThreshold (r.get "slow_queries_rate") ||
      isOver threshold.mysqlLockWaitRateThreshold (r.get "innodb_row_lock_waits_rate") ||
      (isOver (.finite 0) (r.get "innodb_buffer_pool_hit_percent") &&
        isUnder threshold.mysqlBufferPoolHitThreshold (r.get "innodb_buffer_pool_hit_percent"))
  | .redis, r =>
    decide (r.get "up" = .int 0) ||
      isOver threshold.redisConnectionThreshold (r.get "connection_used_percent") ||
      isOver threshold.redisMemoryThreshold (r.get "memory_used_percent") ||
      (isOver (.finite 0) (r.get "keyspace_hit_percent") &&
        isUnder threshold.redisHitRateThreshold (r.get "keyspace_hit_percent")) ||
      (decide (r.get "replication_configured" = .int 1) &&
        decide (r.get "master_link_up" = .int 0)) ||
      isOver threshold.redisReplicationLagThreshold (r.get "master_last_io_seconds_ago") ||
      isOver (.finite 0) (r.get "rejected_connections") ||
      isOver threshold.redisSlowlogGrowthThreshold (r.get "slowlog_growth")

/-- The metrics that are reported above a threshold. -/
def bounds (s : Scan) : List (String × Flt) :=
  threshold.upper s.table ++
    if s = .performance then
      [("cpu_percent_rate", threshold.changeRateThreshold),
        ("mem_used_percent_rate", threshold.changeRateThreshold)]
    else []

end Scan

/-- A flag that is neither zero nor one. -/
def Undecided (v : Value) : Prop := v ≠ .int 0 ∧ v ≠ .int 1

instance : DecidablePred Undecided := fun _ => inferInstanceAs (Decidable (_ ∧ _))

/-- **What only the classification sees in a row**: a null that is taken for zero and exceeds
a negative threshold, an instance that is neither up nor down, a lag that is over its
threshold, and a link of a replica that is neither up nor down. -/
def Scan.Overlooked (threshold : AnomalyThreshold) (s : Scan) (r : Row) : Prop :=
  (∃ p ∈ s.bounds threshold, r.get p.1 = .null ∧ p.2.exceededBy 0 = true) ∨
    match s with
    | .performance => False
    | .mysql => Undecided (r.get "up") ∨
        isOver threshold.mysqlReplicationLagThreshold (r.get "replication_lag_seconds") = true
    | .redis => Undecided (r.get "up") ∨
        (r.get "replication_configured" = .int 1 ∧ Undecided (r.get "master_link_up"))

/-! ### The classification of a row -/

section Values

variable {v : Value} (t : Flt)

/-- A metric that is read as a number. -/
theorem exceededBy_number (hv : IsMetric v) :
    t.exceededBy (number v) = (isOver t v || decide (v = .null) && t.exceededBy 0) := by
  rcases hv with rfl | ⟨q, hq⟩
  · simp [number, isOver, Value.rat?]
  · have hne : v ≠ .null := by rintro rfl; cases hq
    simp [number, isOver, hq, hne]

theorem exceededBy_abs_number (hv : IsMetric v) :
    t.exceededBy |number v| = (isAbsOver t v || decide (v = .null) && t.exceededBy 0) := by
  rcases hv with rfl | ⟨q, hq⟩
  · simp [number, isAbsOver, Value.rat?]
  · have hne : v ≠ .null := by rintro rfl; cases hq
    simp [number, isAbsOver, hq, hne]

theorem pos_number (hv : IsMetric v) : decide (0 < number v) = isOver (.finite 0) v := by
  rcases hv with rfl | ⟨q, hq⟩
  · simp [number, isOver, Value.rat?]
  · simp [number, isOver, hq, Flt.exceededBy]

/-- A null is not between zero and a threshold. -/
theorem pos_and_above_number (hv : IsMetric v) :
    (decide (0 < number v) && t.above (number v)) = (isOver (.finite 0) v && isUnder t v) := by
  rcases hv with rfl | ⟨q, hq⟩
  · simp [number, isOver, Value.rat?]
  · simp [number, isOver, isUnder, hq, Flt.exceededBy]

end Values

namespace Scan

variable {d : ExactDialect} {clock : Clock} {threshold : AnomalyThreshold} {s : Scan} {r r' : Row}

/-- **The tests are those of the values.** -/
theorem map_fst_checks (hr : s.Measured r) :
    (s.checks d clock threshold (Row.texts d.toDialect s.columns r)).map (·.1) =
      s.tests threshold r := by
  have hmetric := fun i c (h : s.columns[i]? = some c) (hc : c ∈ s.metrics) =>
    toFloat_texts_eq_number (d := d) h (hr.metric c hc)
  have hflag := fun i c (h : s.columns[i]? = some c) (hc : c ∈ s.flags) =>
    toBool_texts (d := d) h (hr.flag c hc)
  cases s with
  | performance =>
    simp only [checks, performanceChecks, List.map_cons, List.map_nil, tests]
    rw [hmetric 2 _ rfl (by decide), hmetric 3 _ rfl (by decide), hmetric 4 _ rfl (by decide),
      hmetric 5 _ rfl (by decide), hmetric 6 _ rfl (by decide)]
  | mysql =>
    simp only [checks, mysqlChecks, List.map_cons, List.map_nil, tests]
    rw [hflag 3 _ rfl (by decide), hmetric 4 _ rfl (by decide), hmetric 5 _ rfl (by decide),
      hmetric 6 _ rfl (by decide), hmetric 7 _ rfl (by decide), hmetric 8 _ rfl (by decide)]
  | redis =>
    simp only [checks, redisChecks, List.map_cons, List.map_nil, tests]
    rw [hflag 3 _ rfl (by decide), hmetric 4 _ rfl (by decide), hmetric 5 _ rfl (by decide),
      hmetric 6 _ rfl (by decide), hflag 7 _ rfl (by decide), hflag 8 _ rfl (by decide),
      hmetric 9 _ rfl (by decide), hmetric 10 _ rfl (by decide), hmetric 11 _ rfl (by decide)]

/-- A test depends on its own columns. -/
theorem tests_congr {i : ℕ} {columns : List String} (hi : s.reads[i]? = some columns)
    (h : ∀ c ∈ columns, r.get c = r'.get c) :
    (s.tests threshold r)[i]? = (s.tests threshold r')[i]? := by
  cases s <;> rcases i with _ | _ | _ | _ | _ | _ | _ | _ | i <;> cases hi <;>
    simp_all [tests]

/-- **Without an alarm, a row is reported if and only if it is overlooked.** -/
theorem classify_eq_nil_iff (hr : s.Measured r) (halarm : s.alarm threshold r = false) :
    s.classify d clock threshold (Row.texts d.toDialect s.columns r) = [] ↔
      ¬ s.Overlooked threshold r := by
  rw [classify, reported_eq_nil_iff, map_fst_checks hr]
  have hmetric := hr.metric
  cases s with
  | performance =>
    simp only [metrics, List.forall_mem_cons, List.not_mem_nil, false_implies, implies_true,
      and_true] at hmetric
    obtain ⟨hcpu, hmem, hdisk, hcpuRate, hmemRate⟩ := hmetric
    simp only [alarm, Bool.or_eq_false_iff] at halarm
    simp [tests, Overlooked, bounds, AnomalyThreshold.upper, table, exceededBy_number _ hcpu,
      exceededBy_number _ hmem, exceededBy_number _ hdisk, exceededBy_abs_number _ hcpuRate,
      exceededBy_abs_number _ hmemRate, halarm]
  | mysql =>
    simp only [metrics, List.forall_mem_cons, List.not_mem_nil, false_implies, implies_true,
      and_true] at hmetric
    obtain ⟨hconn, hlag, hslow, hlock, hhit⟩ := hmetric
    simp only [alarm, Bool.or_eq_false_iff, decide_eq_false_iff_not] at halarm
    obtain ⟨⟨⟨⟨⟨hup, hconn'⟩, -⟩, hslow'⟩, hlock'⟩, hhit'⟩ := halarm
    simp only [tests, exceededBy_number _ hconn, exceededBy_number _ hlag,
      exceededBy_number _ hslow, exceededBy_number _ hlock, pos_and_above_number _ hhit, hconn',
      hslow', hlock', hhit', hup, Overlooked, Undecided, bounds, AnomalyThreshold.upper, table,
      Bool.false_or, List.mem_cons, List.not_mem_nil, or_false, forall_eq_or_imp,
      Bool.not_eq_eq_eq_not, Bool.not_false, decide_eq_true_eq, Bool.and_eq_false_imp,
      Bool.or_eq_false_iff, imp_self, implies_true, and_true, reduceCtorEq, if_false,
      List.append_nil, exists_eq_or_imp, ↓existsAndEq, true_and, ne_eq, not_false_eq_true, not_or,
      not_and, Bool.not_eq_true, Decidable.not_not]
    constructor
    · rintro ⟨h1, hc, ⟨ho, hl⟩, hs, hw⟩
      exact ⟨⟨hc, hl, hs, hw⟩, h1, ho⟩
    · rintro ⟨⟨hc, hl, hs, hw⟩, h1, ho⟩
      exact ⟨h1, hc, ⟨ho, hl⟩, hs, hw⟩
  | redis =>
    simp only [metrics, List.forall_mem_cons, List.not_mem_nil, false_implies, implies_true,
      and_true] at hmetric
    obtain ⟨hconn, hmem, hhit, hlag, hreject, hslow⟩ := hmetric
    simp only [alarm, Bool.or_eq_false_iff, decide_eq_false_iff_not] at halarm
    obtain ⟨⟨⟨⟨⟨⟨⟨hup, hconn'⟩, hmem'⟩, hhit'⟩, hlink⟩, hlag'⟩, hreject'⟩, hslow'⟩ := halarm
    have hlink' : r.get "replication_configured" = .int 1 → r.get "master_link_up" ≠ .int 0 := by
      simpa using hlink
    simp only [tests, exceededBy_number _ hconn, exceededBy_number _ hmem,
      pos_and_above_number _ hhit, exceededBy_number _ hlag, pos_number hreject,
      exceededBy_number _ hslow, hconn', hmem', hhit', hlag', hreject', hslow', hup, Overlooked,
      Undecided, bounds, AnomalyThreshold.upper, table, Bool.false_or, List.mem_cons,
      List.not_mem_nil, or_false, forall_eq_or_imp, Bool.not_eq_eq_eq_not, Bool.not_false,
      decide_eq_true_eq, Bool.and_eq_false_imp, forall_eq, true_and, reduceCtorEq, if_false,
      List.append_nil, exists_eq_or_imp, ↓existsAndEq, ne_eq, not_false_eq_true, not_or, not_and,
      Bool.not_eq_true, Decidable.not_not]
    constructor
    · rintro ⟨h1, hc, hm, hlk, hl, hs⟩
      exact ⟨⟨hc, hm, hl, hs⟩, h1, fun hconf _ => hlk hconf⟩
    · rintro ⟨⟨hc, hm, hl, hs⟩, h1, hlk⟩
      exact ⟨h1, hc, hm, fun hconf => hlk hconf (hlink' hconf), hl, hs⟩

end Scan

/-! ### What the statements select -/

section Selection

variable {d : ExactDialect} {v : Value} {t : Flt}

/-- `column > ?`. -/
theorem lt_doubleParam (hv : IsMetric v) (ht : t.Finite) : d.lt (doubleParam t) v = isOver t v := by
  obtain ⟨q, rfl⟩ := ht
  rcases hv with rfl | ⟨x, hx⟩
  · rw [d.null_lt]
    rfl
  · rw [doubleParam, d.lt_rat (Value.rat?_num q) hx]
    simp [isOver, hx, Flt.exceededBy]

/-- `ABS(column) > ?`. -/
theorem lt_abs (hv : IsMetric v) (ht : t.Finite) :
    d.lt (doubleParam t) (d.abs v) = isAbsOver t v := by
  rcases hv with rfl | ⟨x, hx⟩
  · rw [d.abs_null, d.null_lt]
    rfl
  · rw [lt_doubleParam (.inr ⟨_, d.abs_rat hx⟩) ht]
    simp [isOver, isAbsOver, d.abs_rat hx, hx]

/-- `column < ?`. -/
theorem doubleParam_lt (hv : IsMetric v) (ht : t.Finite) :
    d.lt v (doubleParam t) = isUnder t v := by
  obtain ⟨q, rfl⟩ := ht
  rcases hv with rfl | ⟨x, hx⟩
  · rw [d.lt_null]
    rfl
  · rw [doubleParam, d.lt_rat hx (Value.rat?_num q)]
    simp [isUnder, hx, Flt.above]

/-- `column > 0`. -/
theorem lt_zero (hv : IsMetric v) : d.lt (.int 0) v = isOver (.finite 0) v := by
  rcases hv with rfl | ⟨x, hx⟩
  · rw [d.null_lt]
    rfl
  · rw [d.lt_rat (Value.rat?_int 0) hx]
    simp [isOver, hx, Flt.exceededBy]

/-- A flag that is compared with a number. -/
theorem eq_int (hv : IsFlag v) (n : ℤ) : d.eq v (.int n) = decide (v = .int n) := by
  rcases hv with rfl | ⟨k, rfl⟩
  · rw [d.eq_null]
    simp
  · rw [d.eq_rat (Value.rat?_int k) (Value.rat?_int n)]
    simp

/-- The conditions that the three scans begin with. -/
theorem evalAll_anomalyWhere {d : Dialect} {scope : QueryScope} {r : Row}
    {serverName startTime endTime : String} (hr : ScopeTyped r)
    (hname : ∃ s, r.get "server_name" = .text s) (conds : List Cond) (params : List Value) :
    evalAll d r (anomalyWhere scope serverName ++ conds)
        (anomalyParams scope serverName startTime endTime ++ params) =
      (decide (InScope scope r ∧ (serverName ≠ "" → r.get "server_name" = .text serverName) ∧
        InRange d startTime endTime r) && evalAll d r conds params) := by
  unfold anomalyWhere anomalyParams
  rw [List.append_assoc, List.append_assoc, List.append_assoc, List.append_assoc,
    evalAll_scopePredicate hr]
  by_cases h : serverName = ""
  · simp [h, evalAll, Cond.eval, Term.eval, nth, stringParam, InRange, Bool.decide_and,
      Bool.and_assoc]
  · simp [h, equals, evalAll, Cond.eval, Cmp.eval, Term.eval, nth, stringParam,
      eq_text_eq_decide hname, InRange, Bool.decide_and, Bool.and_assoc, Bool.and_left_comm]

/-- **The alarm is the last condition of a scan.** -/
theorem Scan.exists_alarm {threshold : AnomalyThreshold} (scope : QueryScope)
    (serverName startTime endTime : String) (hfinite : threshold.Finite) (s : Scan) :
    ∃ cond params,
      (s.stmt scope serverName startTime endTime threshold).stmt.conds =
        anomalyWhere scope serverName ++ [cond] ∧
      (s.stmt scope serverName startTime endTime threshold).stmt.condParams
          (s.stmt scope serverName startTime endTime threshold).params =
        anomalyParams scope serverName startTime endTime ++ params ∧
      (s.stmt scope serverName startTime endTime threshold).stmt.table = s.table ∧
      ∀ r, s.Measured r → cond.eval d.toDialect r params = s.alarm threshold r := by
  have hthreshold : ∀ t ∈ threshold.values, t.Finite := hfinite
  simp only [AnomalyThreshold.values, List.forall_mem_cons, List.not_mem_nil, false_implies,
    implies_true, and_true] at hthreshold
  obtain ⟨hcpu, hmem, hdisk, hrate, hconn, hlag, hslow, hlock, hpool, hrconn, hrmem, hrhit, hrlag,
    hrslow⟩ := hthreshold
  cases s with
  | performance =>
    refine ⟨_, _, rfl, rfl, rfl, fun r hr => ?_⟩
    have hmetric := hr.metric
    simp only [metrics, List.forall_mem_cons, List.not_mem_nil, false_implies, implies_true,
      and_true] at hmetric
    obtain ⟨h₁, h₂, h₃, h₄, h₅⟩ := hmetric
    simp [greater, Cond.eval, Cmp.eval, Term.eval, nth, alarm, lt_doubleParam h₁ hcpu,
      lt_doubleParam h₂ hmem, lt_doubleParam h₃ hdisk, lt_abs h₄ hrate, lt_abs h₅ hrate]
  | mysql =>
    refine ⟨_, _, rfl, rfl, rfl, fun r hr => ?_⟩
    have hmetric := hr.metric
    have hflag := hr.flag
    simp only [metrics, flags, List.forall_mem_cons, List.not_mem_nil, false_implies, implies_true,
      and_true] at hmetric hflag
    obtain ⟨h₁, h₂, h₃, h₄, h₅⟩ := hmetric
    obtain ⟨hup, hconfigured⟩ := hflag
    simp [greater, less, Cond.eval, Cmp.eval, Term.eval, nth, alarm, eq_int hup,
      eq_int hconfigured, lt_doubleParam h₁ hconn, lt_doubleParam h₂ hlag,
      lt_doubleParam h₃ hslow, lt_doubleParam h₄ hlock, lt_zero h₅, doubleParam_lt h₅ hpool]
  | redis =>
    refine ⟨_, _, rfl, rfl, rfl, fun r hr => ?_⟩
    have hmetric := hr.metric
    have hflag := hr.flag
    simp only [metrics, flags, List.forall_mem_cons, List.not_mem_nil, false_implies, implies_true,
      and_true] at hmetric hflag
    obtain ⟨h₁, h₂, h₃, h₄, h₅, h₆⟩ := hmetric
    obtain ⟨hup, hconfigured, hlink⟩ := hflag
    simp [greater, less, Cond.eval, Cmp.eval, Term.eval, nth, alarm, eq_int hup,
      eq_int hconfigured, eq_int hlink, lt_doubleParam h₁ hrconn, lt_doubleParam h₂ hrmem,
      lt_zero h₃, doubleParam_lt h₃ hrhit, lt_doubleParam h₄ hrlag, lt_zero h₅,
      lt_doubleParam h₆ hrslow]

end Selection

namespace QueryManager

/-- **The rows that a scan asks for**: those of the scope, of the server if one is named, and of
the time range. -/
def asked (m : QueryManager) (d : Dialect) (db : Database) (scope : QueryScope)
    (serverName : String) (range : TimeRange) (s : Scan) : List Row :=
  (db.rows s.table).filter fun r => InScope scope r ∧
    (serverName ≠ "" → r.get "server_name" = .text serverName) ∧
    InRange d (formatTimePoint m.platform range.startTime)
      (formatTimePoint m.platform range.endTime) r

/-- The statement of a scan, for a request. -/
def scanOf (m : QueryManager) (scope : QueryScope) (serverName : String) (range : TimeRange)
    (threshold : AnomalyThreshold) (s : Scan) : Prepared :=
  s.stmt scope serverName (formatTimePoint m.platform range.startTime)
    (formatTimePoint m.platform range.endTime) threshold

variable {m : QueryManager} {d : ExactDialect} {db : AnomalyTables} {scope : QueryScope}
  {serverName : String} {range : TimeRange} {threshold : AnomalyThreshold} {page pageSize : ℤ}

/-- **A statement selects the rows with an alarm.** -/
theorem matching_scanOf (hfinite : threshold.Finite) (s : Scan) :
    (m.scanOf scope serverName range threshold s).stmt.matching d.toDialect db.rows
        (m.scanOf scope serverName range threshold s).params =
      (m.asked d.toDialect db.toDatabase scope serverName range s).filter (s.alarm threshold) := by
  obtain ⟨cond, params, hconds, hparams, htable, heval⟩ := s.exists_alarm (d := d) scope serverName
    (formatTimePoint m.platform range.startTime) (formatTimePoint m.platform range.endTime) hfinite
  rw [asked, List.filter_filter, Stmt.matching, scanOf, hconds, hparams, htable]
  refine List.filter_congr fun r hr => ?_
  rw [evalAll_anomalyWhere (db.typed _ r hr) (db.named _ r hr), evalAll, evalAll,
    heval r (db.measured s r hr), Bool.and_true, Bool.and_comm]

/-- A scan is answered with an arrangement of the rows with an alarm. -/
theorem serves_scanOf_iff (hfinite : threshold.Finite) (s : Scan) {l : List Row} {texts : Rows} :
    (m.scanOf scope serverName range threshold s).Serves d.toDialect db.rows l (.ok texts) ↔
      Arranged d.toDialect
          ((m.asked d.toDialect db.toDatabase scope serverName range s).filter (s.alarm threshold))
          "timestamp" .desc l ∧
        texts = l.map (Row.texts d.toDialect s.columns) := by
  rw [← matching_scanOf hfinite s]
  cases s <;>
    exact and_congr_right fun _ => ⟨fun h => Except.ok.inj h, fun h => congrArg Except.ok h⟩

/-- A scan hands out all the rows that it arranges. -/
theorem handsOut_scanOf (s : Scan) (l : List Row) :
    (m.scanOf scope serverName range threshold s).handsOut d.toDialect l = l := by
  cases s <;> rfl

/-- The three scans, one after the other. -/
def threeScans (m : QueryManager) (scope : QueryScope) (serverName : String) (range : TimeRange)
    (threshold : AnomalyThreshold) (page pageSize : ℤ) : Query Fetched := do
  let rows ← executePreparedRows (m.scanOf scope serverName range threshold .performance)
  let mysqlRows ← executePreparedRows (m.scanOf scope serverName range threshold .mysql)
  let redisRows ← executePreparedRows (m.scanOf scope serverName range threshold .redis)
  pure (.scans rows mysqlRows redisRows (normalPage page) (normalPageSize pageSize))

/-- After the first checks there are the three scans. -/
theorem queryAnomalyRecords_apply (hlease : m.lease = .acquired) (hscope : scope.Admitted)
    (hrange : validateTimeRange range = true) (answer : Prepared → Reply) :
    m.queryAnomalyRecords scope serverName range threshold page pageSize answer =
      m.threeScans scope serverName range threshold page pageSize answer := by
  rw [queryAnomalyRecords, bind_apply_ok (begin_apply hlease hscope answer), List.nil_append,
    bind_apply_ok (checkRange_apply hrange answer), List.nil_append]
  rfl

/-- The three scans, once they are answered. -/
theorem threeScans_apply {answer : Prepared → Reply} {texts : Scan → Rows}
    (h : ∀ s, answer (m.scanOf scope serverName range threshold s) = .ok (texts s)) :
    m.threeScans scope serverName range threshold page pageSize answer =
      (Scan.all.map (m.scanOf scope serverName range threshold),
        .ok (.scans (texts .performance) (texts .mysql) (texts .redis) (normalPage page)
          (normalPageSize pageSize))) := by
  rw [threeScans, bind_apply_ok (executePreparedRows_apply (h .performance)),
    bind_apply_ok (executePreparedRows_apply (h .mysql)),
    bind_apply_ok (executePreparedRows_apply (h .redis))]
  rfl

/-- The second scan is asked for, if the first one is answered. -/
theorem mem_log_threeScans_mysql {answer : Prepared → Reply} {rows : Rows}
    (h : answer (m.scanOf scope serverName range threshold .performance) = .ok rows) :
    m.scanOf scope serverName range threshold .mysql ∈
      (m.threeScans scope serverName range threshold page pageSize answer).1 := by
  rw [threeScans, bind_apply_ok (executePreparedRows_apply h)]
  exact List.mem_append_right _ (mem_log_bind (mem_log_executePreparedRows _ _))

/-- The third scan is asked for, if the first two are answered. -/
theorem mem_log_threeScans_redis {answer : Prepared → Reply} {rows mysqlRows : Rows}
    (h : answer (m.scanOf scope serverName range threshold .performance) = .ok rows)
    (hmysql : answer (m.scanOf scope serverName range threshold .mysql) = .ok mysqlRows) :
    m.scanOf scope serverName range threshold .redis ∈
      (m.threeScans scope serverName range threshold page pageSize answer).1 := by
  rw [threeScans, bind_apply_ok (executePreparedRows_apply h),
    bind_apply_ok (executePreparedRows_apply hmysql)]
  exact List.mem_append_right _ (List.mem_append_right _
    (mem_log_bind (mem_log_executePreparedRows _ _)))

section Executions

variable (hlease : m.lease = .acquired) (hscope : scope.Admitted)
  (hrange : validateTimeRange range = true) (hfinite : threshold.Finite)

include hlease hscope hrange hfinite

/-- **What an execution comes to**: the texts of three arrangements of the rows with an
alarm. -/
theorem execution_anomalyRecords
    (e : Execution d.toDialect db.rows
      (m.queryAnomalyRecords scope serverName range threshold page pageSize)) :
    (∀ s : Scan, Arranged d.toDialect
      ((m.asked d.toDialect db.toDatabase scope serverName range s).filter (s.alarm threshold))
      "timestamp" .desc (e.order (m.scanOf scope serverName range threshold s))) ∧
    e.result = .ok (.scans
      ((e.order (m.scanOf scope serverName range threshold .performance)).map
        (Row.texts d.toDialect Scan.performance.columns))
      ((e.order (m.scanOf scope serverName range threshold .mysql)).map
        (Row.texts d.toDialect Scan.mysql.columns))
      ((e.order (m.scanOf scope serverName range threshold .redis)).map
        (Row.texts d.toDialect Scan.redis.columns))
      (normalPage page) (normalPageSize pageSize)) := by
  have happly : m.queryAnomalyRecords scope serverName range threshold page pageSize e.answer =
      m.threeScans scope serverName range threshold page pageSize e.answer :=
    queryAnomalyRecords_apply hlease hscope hrange e.answer
  have hserved : ∀ s, m.scanOf scope serverName range threshold s ∈
      (m.threeScans scope serverName range threshold page pageSize e.answer).1 →
        ∃ texts, e.answer (m.scanOf scope serverName range threshold s) = .ok texts ∧
          (m.scanOf scope serverName range threshold s).Serves d.toDialect db.rows
            (e.order (m.scanOf scope serverName range threshold s)) (.ok texts) := fun s hs =>
    e.exists_ok (by rwa [happly])
  obtain ⟨rows, hrows, hserves⟩ := hserved .performance
    (mem_log_bind (mem_log_executePreparedRows _ _))
  obtain ⟨mysqlRows, hmysqlRows, hmysqlServes⟩ := hserved .mysql (mem_log_threeScans_mysql hrows)
  obtain ⟨redisRows, hredisRows, hredisServes⟩ := hserved .redis
    (mem_log_threeScans_redis hrows hmysqlRows)
  obtain ⟨hl, rfl⟩ := (serves_scanOf_iff hfinite .performance).mp hserves
  obtain ⟨hmysql, rfl⟩ := (serves_scanOf_iff hfinite .mysql).mp hmysqlServes
  obtain ⟨hredis, rfl⟩ := (serves_scanOf_iff hfinite .redis).mp hredisServes
  have hall : ∀ s : Scan, e.answer (m.scanOf scope serverName range threshold s) =
      .ok ((e.order (m.scanOf scope serverName range threshold s)).map
        (Row.texts d.toDialect s.columns)) := by
    intro s
    cases s
    · exact hrows
    · exact hmysqlRows
    · exact hredisRows
  refine ⟨fun s => ?_, ?_⟩
  · cases s
    · exact hl
    · exact hmysql
    · exact hredis
  · rw [Execution.result, happly, threeScans_apply hall]

/-- **There is an execution.** -/
theorem exists_execution_anomalyRecords :
    Nonempty (Execution d.toDialect db.rows
      (m.queryAnomalyRecords scope serverName range threshold page pageSize)) := by
  have hstamped : ∀ s : Scan, ∀ r ∈ (m.asked d.toDialect db.toDatabase scope serverName range
      s).filter (s.alarm threshold), ∃ t, r.get "timestamp" = .text t := by
    intro s r hr
    exact db.stamped _ r (List.mem_of_mem_filter (List.mem_of_mem_filter hr))
  choose l hperm hsorted using fun s : Scan => Paging.exists_sorted (d.weakOrder_later "timestamp")
    ((m.asked d.toDialect db.toDatabase scope serverName range s).filter (s.alarm threshold))
  have harranged := fun s => (d.arranged_iff (hstamped s)).mpr ⟨hperm s, hsorted s⟩
  -- the scans are told apart by their tables
  obtain ⟨order, horder⟩ : ∃ order : Prepared → List Row, ∀ s,
      order (m.scanOf scope serverName range threshold s) = l s :=
    ⟨fun p => match p.stmt.table with
      | .serverPerformance => l .performance
      | .serverMysqlDetail => l .mysql
      | _ => l .redis, fun s => by cases s <;> rfl⟩
  obtain ⟨answer, hanswer⟩ : ∃ answer : Prepared → Reply, ∀ s,
      answer (m.scanOf scope serverName range threshold s) =
        .ok ((l s).map (Row.texts d.toDialect s.columns)) :=
    ⟨fun p => match p.stmt.table with
      | .serverPerformance => .ok ((l .performance).map
          (Row.texts d.toDialect Scan.performance.columns))
      | .serverMysqlDetail => .ok ((l .mysql).map (Row.texts d.toDialect Scan.mysql.columns))
      | _ => .ok ((l .redis).map (Row.texts d.toDialect Scan.redis.columns)),
      fun s => by cases s <;> rfl⟩
  refine ⟨⟨answer, order, fun p hp => ?_⟩⟩
  rw [queryAnomalyRecords_apply hlease hscope hrange, threeScans_apply hanswer] at hp
  obtain ⟨s, -, rfl⟩ := List.mem_map.mp hp
  rw [horder, hanswer]
  exact (serves_scanOf_iff hfinite s).mpr ⟨harranged s, rfl⟩

end Executions

/-! ### Transparency -/

/-- The records that rows of the three tables leave. -/
def classified (d : ExactDialect) (clock : Clock) (threshold : AnomalyThreshold)
    (rows : Scan → List Row) : List AnomalyRecord :=
  Scan.all.flatMap fun s => (rows s).flatMap fun r =>
    s.classify d clock threshold (Row.texts d.toDialect s.columns r)

/-- The `i`-th test of a scan is reported for a row: the row is handed out, and the test
holds. -/
def Reports (m : QueryManager) (d : ExactDialect) (clock : Clock) (scope : QueryScope)
    (serverName : String) (range : TimeRange) (threshold : AnomalyThreshold)
    (order : Prepared → List Row) (s : Scan) (i : ℕ) (r : Row) : Prop :=
  r ∈ (m.scanOf scope serverName range threshold s).handsOut d.toDialect
      (order (m.scanOf scope serverName range threshold s)) ∧
    ((s.checks d clock threshold (Row.texts d.toDialect s.columns r)).map (·.1))[i]? = some true

/-- **The preselection of the statements cannot be seen** in an execution. -/
structure Transparent (m : QueryManager) (d : ExactDialect) (clock : Clock) (db : Tables)
    (scope : QueryScope) (serverName : String) (range : TimeRange) (threshold : AnomalyThreshold)
    (page pageSize : ℤ)
    (e : Execution d.toDialect db.rows
      (m.queryAnomalyRecords scope serverName range threshold page pageSize)) : Prop where
  /-- The records before paging are those of all the rows that are asked for. -/
  records : ∃ (rows mysqlRows redisRows : Rows) (p n : ℤ),
    e.result = .ok (.scans rows mysqlRows redisRows p n) ∧
      ∀ sorted, Records (collected d clock threshold rows mysqlRows redisRows) sorted →
        sorted.Perm (classified d clock threshold
          (m.asked d.toDialect db.toDatabase scope serverName range))
  /-- Rows with the same values in the columns of a test are reported alike. -/
  independent : ∀ (s : Scan) (i : ℕ) (columns : List String), s.reads[i]? = some columns →
    ∀ r ∈ m.asked d.toDialect db.toDatabase scope serverName range s,
    ∀ r' ∈ m.asked d.toDialect db.toDatabase scope serverName range s,
      (∀ c ∈ columns, r.get c = r'.get c) →
        (m.Reports d clock scope serverName range threshold e.order s i r ↔
          m.Reports d clock scope serverName range threshold e.order s i r')

/-- What is collected from the texts of rows is what they leave. -/
theorem collected_map_texts (clock : Clock) (l : Scan → List Row) :
    collected d clock threshold
        ((l .performance).map (Row.texts d.toDialect Scan.performance.columns))
        ((l .mysql).map (Row.texts d.toDialect Scan.mysql.columns))
        ((l .redis).map (Row.texts d.toDialect Scan.redis.columns)) =
      classified d clock threshold l := by
  simp [collected, classified, Scan.all, List.flatMap_map]

theorem classified_perm (clock : Clock) {l l' : Scan → List Row} (h : ∀ s, (l s).Perm (l' s)) :
    (classified d clock threshold l).Perm (classified d clock threshold l') :=
  List.Perm.flatMap_left _ fun s _ => (h s).flatMap_right _

theorem measured_of_mem_asked {s : Scan} {r : Row}
    (h : r ∈ m.asked d.toDialect db.toDatabase scope serverName range s) : s.Measured r :=
  db.measured s r (List.mem_of_mem_filter h)

/-- **When the preselection of the statements cannot be seen.** For all contents of the tables,
every scope, server filter, range and thresholds, in every execution: the records before paging
are those that the classification makes of all the rows that are asked for, and whether a test
is reported depends on its own columns only, if and only if no row that is asked for has
something that only the classification sees and no alarm at all. -/
theorem transparent_iff (d : ExactDialect) (clock : Clock) (db : AnomalyTables) (m : QueryManager)
    (hlease : m.lease = .acquired) (scope : QueryScope) (hscope : scope.Admitted)
    (serverName : String) (range : TimeRange) (hrange : validateTimeRange range = true)
    (threshold : AnomalyThreshold) (hfinite : threshold.Finite) (page pageSize : ℤ)
    (e : Execution d.toDialect db.rows
      (m.queryAnomalyRecords scope serverName range threshold page pageSize)) :
    m.Transparent d clock db.toTables scope serverName range threshold page pageSize e ↔
      ∀ s : Scan, ∀ r ∈ m.asked d.toDialect db.toDatabase scope serverName range s,
        s.alarm threshold r = false → ¬ s.Overlooked threshold r := by
  obtain ⟨harranged, hresult⟩ := execution_anomalyRecords hlease hscope hrange hfinite e
  -- the preselection loses nothing if and only if what it drops leaves no records
  have hdropped := Lists.perm_flatMap_flatMap_filter_iff
    (A := m.asked d.toDialect db.toDatabase scope serverName range)
    (p := fun s => s.alarm threshold)
    (f := fun s r => s.classify d clock threshold (Row.texts d.toDialect s.columns r)) Scan.all
  have hcollected : (classified d clock threshold fun s =>
      e.order (m.scanOf scope serverName range threshold s)).Perm _ :=
    classified_perm clock fun s => (harranged s).perm
  constructor
  · rintro ⟨⟨rows, mysqlRows, redisRows, p, n, hok, hrecords⟩, -⟩ s r hr halarm
    rw [hresult] at hok
    cases hok
    rw [collected_map_texts clock fun s => e.order (m.scanOf scope serverName range threshold s)]
      at hrecords
    obtain ⟨sorted, hperm, hsorted⟩ := Paging.exists_sorted weakOrder_timestamp
      (classified d clock threshold fun s => e.order (m.scanOf scope serverName range threshold s))
    have hall := hcollected.symm.trans (hperm.symm.trans (hrecords sorted ⟨hperm, hsorted⟩))
    exact (Scan.classify_eq_nil_iff (measured_of_mem_asked hr) halarm).mp
      (hdropped.mp hall s (by cases s <;> simp [Scan.all]) r hr halarm)
  · intro h
    have hnil : ∀ s : Scan, ∀ r ∈ m.asked d.toDialect db.toDatabase scope serverName range s,
        s.alarm threshold r = false →
          s.classify d clock threshold (Row.texts d.toDialect s.columns r) = [] :=
      fun s r hr halarm =>
        (Scan.classify_eq_nil_iff (measured_of_mem_asked hr) halarm).mpr (h s r hr halarm)
    refine ⟨⟨_, _, _, _, _, hresult, fun sorted hsorted => ?_⟩,
      fun s i columns hi r hr r' hr' hc => ?_⟩
    · rw [collected_map_texts clock fun s => e.order (m.scanOf scope serverName range threshold s)]
        at hsorted
      exact hsorted.perm.trans (hcollected.trans (hdropped.mpr fun s _ => hnil s))
    · -- a test that holds is reported
      have hreports : ∀ x ∈ m.asked d.toDialect db.toDatabase scope serverName range s,
          (m.Reports d clock scope serverName range threshold e.order s i x ↔
            (s.tests threshold x)[i]? = some true) := by
        intro x hx
        rw [Reports, Scan.map_fst_checks (measured_of_mem_asked hx), handsOut_scanOf,
          (harranged s).perm.mem_iff, and_iff_right_iff_imp]
        intro htrue
        refine List.mem_filter.mpr ⟨hx, ?_⟩
        by_contra halarm
        have hfalse := hnil s x hx (by simpa using halarm)
        rw [Scan.classify, reported_eq_nil_iff, Scan.map_fst_checks (measured_of_mem_asked hx)]
          at hfalse
        exact absurd (hfalse _ (List.mem_of_getElem? htrue)) (by simp)
      rw [hreports r hr, hreports r' hr', Scan.tests_congr hi hc]

/-- A MySQL instance at midnight, with a lag of forty seconds. -/
def laggingRow (id : ℤ) (slow : ℚ) (configured : ℤ) : Row :=
  [("id", .int id), ("tenant_id", .text "acme"), ("team_id", .text "ops"),
    ("cluster_id", .text "prod"), ("server_name", .text "web-01"), ("instance", .text "orders"),
    ("up", .int 1), ("replication_configured", .int configured),
    ("connection_used_percent", .num 10), ("replication_lag_seconds", .num 40),
    ("slow_queries_rate", .num slow), ("innodb_row_lock_waits_rate", .num 0),
    ("innodb_buffer_pool_hit_percent", .num 99), ("timestamp", .text "2024-01-01 00:00:00")]

theorem measured_laggingRow (id : ℤ) (slow : ℚ) (configured : ℤ) :
    Scan.mysql.Measured (laggingRow id slow configured) := by
  constructor
  · simp only [Scan.metrics, List.forall_mem_cons, List.not_mem_nil, false_implies, implies_true,
      and_true]
    exact ⟨.inr ⟨_, rfl⟩, .inr ⟨_, rfl⟩, .inr ⟨_, rfl⟩, .inr ⟨_, rfl⟩, .inr ⟨_, rfl⟩⟩
  · simp only [Scan.flags, List.forall_mem_cons, List.not_mem_nil, false_implies, implies_true,
      and_true]
    exact ⟨.inr ⟨_, rfl⟩, .inr ⟨_, rfl⟩⟩

/-- Two samples of this instance, the second one with slow queries as well. -/
def laggingTables (configured : ℤ) : AnomalyTables where
  toTables := .single .serverMysqlDetail [laggingRow 1 0 configured, laggingRow 2 3 configured]
    (by
      intro r hr
      simp only [List.mem_cons, List.not_mem_nil, or_false] at hr
      rcases hr with rfl | rfl <;> rfl)
    (by
      change [Value.int 1, Value.int 2].Nodup
      decide) (by simp)
  measured s r hr := by
    cases s with
    | performance => cases hr
    | mysql =>
      rcases List.mem_cons.mp hr with rfl | hr
      · exact measured_laggingRow _ _ _
      · obtain rfl := List.mem_singleton.mp hr
        exact measured_laggingRow _ _ _
    | redis => cases hr

/-- A clock that reads that time. -/
def midnight : Clock := ⟨fun _ => 1704067200, 0⟩

/-- The rows that are asked for, with and without the configuration of a replica. -/
def laggingAsked (configured : ℤ) : Scan → List Row :=
  PagedQuery.newYearManager.asked ExactDialect.reference.toDialect
    (laggingTables configured).toDatabase ⟨"acme", "ops", ""⟩ "" PagedQuery.newYear

theorem finite_default : ({} : AnomalyThreshold).Finite := by
  simp [AnomalyThreshold.Finite, AnomalyThreshold.values, Flt.Finite]

/-- **A lag is reported for one sample and not for the other.** Neither instance has a
configured replica and both lag by forty seconds, but only the one with slow queries is
selected; the classification of the two rows would report the lag of both. -/
theorem lag_reported_with_slow_queries_only :
    Nonempty (Execution ExactDialect.reference.toDialect (laggingTables 0).rows
        (PagedQuery.newYearManager.queryAnomalyRecords ⟨"acme", "ops", ""⟩ "" PagedQuery.newYear {}
          1 100)) ∧
      (classified ExactDialect.reference midnight {} (laggingAsked 0)).map (·.anomalyType) =
        ["MYSQL_REPLICATION_LAG", "MYSQL_REPLICATION_LAG", "MYSQL_SLOW_QUERY_SPIKE"] ∧
      ∀ e : Execution ExactDialect.reference.toDialect (laggingTables 0).rows
          (PagedQuery.newYearManager.queryAnomalyRecords ⟨"acme", "ops", ""⟩ "" PagedQuery.newYear
            {} 1 100),
        (∃ mysqlRows : Rows, e.result = .ok (.scans [] mysqlRows [] 1 100) ∧
          (collected ExactDialect.reference midnight {} [] mysqlRows []).map (·.anomalyType) =
            ["MYSQL_REPLICATION_LAG", "MYSQL_SLOW_QUERY_SPIKE"]) ∧
        ¬ PagedQuery.newYearManager.Transparent ExactDialect.reference midnight
          (laggingTables 0).toTables ⟨"acme", "ops", ""⟩ "" PagedQuery.newYear {} 1 100 e := by
  have hclassified :
      (classified ExactDialect.reference midnight {} (laggingAsked 0)).map (·.anomalyType) =
        ["MYSQL_REPLICATION_LAG", "MYSQL_REPLICATION_LAG", "MYSQL_SLOW_QUERY_SPIKE"] := by
    decide +kernel
  refine ⟨exists_execution_anomalyRecords rfl (by decide) (by decide) finite_default, hclassified,
    fun e => ?_⟩
  obtain ⟨harranged, hresult⟩ := execution_anomalyRecords rfl (by decide) (by decide)
    finite_default e
  have hselected : ∀ s : Scan, (laggingAsked 0 s).filter (s.alarm {}) =
      if s = .mysql then [laggingRow 2 3 0] else [] := by
    intro s
    cases s <;> decide +kernel
  -- one row at most leaves no choice of an arrangement
  have horder : ∀ s : Scan, e.order (PagedQuery.newYearManager.scanOf ⟨"acme", "ops", ""⟩ ""
      PagedQuery.newYear {} s) = if s = .mysql then [laggingRow 2 3 0] else [] := by
    intro s
    have hperm := (hselected s) ▸ (harranged s).perm
    cases s with
    | mysql => exact List.perm_singleton.mp hperm
    | performance => exact List.perm_nil.mp hperm
    | redis => exact List.perm_nil.mp hperm
  rw [horder, horder, horder] at hresult
  have hcollected : (collected ExactDialect.reference midnight {} []
      [Row.texts ExactDialect.reference.toDialect Scan.mysql.columns (laggingRow 2 3 0)] []).map
        (·.anomalyType) = ["MYSQL_REPLICATION_LAG", "MYSQL_SLOW_QUERY_SPIKE"] := by
    decide +kernel
  refine ⟨⟨_, hresult, hcollected⟩, ?_⟩
  rintro ⟨⟨rows, mysqlRows, redisRows, p, n, hok, hrecords⟩, -⟩
  rw [hresult] at hok
  cases hok
  obtain ⟨sorted, hperm, hsorted⟩ := Paging.exists_sorted weakOrder_timestamp
    (collected ExactDialect.reference midnight {} []
      [Row.texts ExactDialect.reference.toDialect Scan.mysql.columns (laggingRow 2 3 0)] [])
  have hlength := (hperm.symm.trans (hrecords sorted ⟨hperm, hsorted⟩)).length_eq
  have htwo := congrArg List.length hcollected
  have hthree := congrArg List.length hclassified
  rw [List.length_map] at htwo hthree
  rw [htwo] at hlength
  exact absurd (hlength.trans hthree) (by decide)

/-- With the replica configured, both lags are reported. -/
theorem transparent_iff_configured :
    (∀ s : Scan, ∀ r ∈ laggingAsked 1 s, s.alarm {} r = false → ¬ s.Overlooked {} r) ∧
      ∀ e : Execution ExactDialect.reference.toDialect (laggingTables 1).rows
          (PagedQuery.newYearManager.queryAnomalyRecords ⟨"acme", "ops", ""⟩ "" PagedQuery.newYear
            {} 1 100),
        PagedQuery.newYearManager.Transparent ExactDialect.reference midnight
          (laggingTables 1).toTables ⟨"acme", "ops", ""⟩ "" PagedQuery.newYear {} 1 100 e := by
  have halarm : ∀ s : Scan, ∀ r ∈ laggingAsked 1 s, s.alarm {} r = true := by
    intro s
    cases s <;> decide +kernel
  have h : ∀ s : Scan, ∀ r ∈ laggingAsked 1 s, s.alarm {} r = false → ¬ s.Overlooked {} r :=
    fun s r hr hfalse => absurd (hfalse.symm.trans (halarm s r hr)) Bool.false_ne_true
  exact ⟨h, fun e => (transparent_iff ExactDialect.reference midnight (laggingTables 1)
    PagedQuery.newYearManager rfl ⟨"acme", "ops", ""⟩ (by decide) "" PagedQuery.newYear (by decide)
    {} finite_default 1 100 e).mpr h⟩

end QueryManager

end MonitorSystem
