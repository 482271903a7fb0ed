import MonitorSystem.Manager.HostManager

/-!
# What a history of pushes leaves behind

`HostManager::onDataReceived` over a whole sequence of calls. A call whose worker does not
resolve to a scope, or that names no host, only counts a drop: `receiveAll_filter` compares
a history with the one from which these calls are taken out and finds the same records for
the write queue, the same scores, the same cached texts and the same previous samples.

What is left is then explicit (`enqueued_filter_eq`): the records of a host are computed each
against the sample of that host before it, whatever other hosts pushed in between. In exact
arithmetic every change rate is the relative change of its own metric
(`history_of_pushes`).
-/

namespace MonitorSystem

/-- A call of `onDataReceived`, with what the registry returns for it and what the clock
shows. -/
structure Received where
  info : MonitorInfo
  identity : WorkerIdentity
  row : Option Registration
  now : ℤ
  deriving DecidableEq, Repr

namespace Received

/-- The scope the call resolves to. -/
def scope (r : Received) : Option WorkerScope := resolveWorkerScope r.identity r.row

/-- Whether the call resolves to a scope and names a host. -/
def processed (r : Received) : Bool := r.scope.isSome && r.info.hostID ≠ ""

end Received

namespace HostManager

variable {p : Platform} {m m' : HostManager}

/-- The calls, in order: the state they leave and what they hand to the write queue. -/
def receiveAll (p : Platform) (m : HostManager) : List Received →
    HostManager × List HostMonitoringData
  | [] => (m, [])
  | r :: rs =>
    let (m, data) := m.onDataReceived p r.info r.identity r.row r.now
    let (m, rest) := receiveAll p m rs
    (m, data.toList ++ rest)

/-- The two managers agree on everything but their counters. -/
structure Agrees (m m' : HostManager) : Prop where
  lastPerfSamples : m.lastPerfSamples = m'.lastPerfSamples
  hostScores : m.hostScores = m'.hostScores
  cachedScores : m.cachedScores = m'.cachedScores

theorem Agrees.refl (m : HostManager) : Agrees m m := ⟨rfl, rfl, rfl⟩

theorem Agrees.trans {m m' m'' : HostManager} (h : Agrees m m') (h' : Agrees m' m'') :
    Agrees m m'' :=
  ⟨h.lastPerfSamples.trans h'.lastPerfSamples, h.hostScores.trans h'.hostScores,
    h.cachedScores.trans h'.cachedScores⟩

/-! ### Taking out the calls that are not processed -/

/-- A call that is not processed leaves everything but the counters alone. -/
theorem onDataReceived_of_not_processed {r : Received} (h : r.processed = false) :
    (m.onDataReceived p r.info r.identity r.row r.now).2 = none ∧
      Agrees (m.onDataReceived p r.info r.identity r.row r.now).1 m := by
  have hdrop : resolveWorkerScope r.identity r.row = none ∨ r.info.hostID = "" := by
    rw [or_iff_not_imp_left, ← ne_eq, Option.ne_none_iff_isSome]
    intro hscope
    simpa [Received.processed, Received.scope, hscope] using h
  obtain ⟨metrics, hm⟩ := onDataReceived_of_dropped hdrop
  rw [hm]
  exact ⟨rfl, ⟨rfl, rfl, rfl⟩⟩

/-- What a call does depends on the counters in nothing but the counters. -/
theorem Agrees.onDataReceived (h : Agrees m m') (r : Received) :
    (m.onDataReceived p r.info r.identity r.row r.now).2 =
        (m'.onDataReceived p r.info r.identity r.row r.now).2 ∧
      Agrees (m.onDataReceived p r.info r.identity r.row r.now).1
        (m'.onDataReceived p r.info r.identity r.row r.now).1 := by
  unfold HostManager.onDataReceived
  split
  · exact ⟨rfl, ⟨h.lastPerfSamples, h.hostScores, h.cachedScores⟩⟩
  · split
    · exact ⟨rfl, h⟩
    · simp only [h.lastPerfSamples, h.hostScores, h.cachedScores]
      exact ⟨trivial, ⟨rfl, rfl, rfl⟩⟩

/-- **The calls that are not processed may be taken out of a history.** -/
theorem receiveAll_filter (h : Agrees m m') (rs : List Received) :
    (receiveAll p m rs).2 = (receiveAll p m' (rs.filter Received.processed)).2 ∧
      Agrees (receiveAll p m rs).1 (receiveAll p m' (rs.filter Received.processed)).1 := by
  induction rs generalizing m m' with
  | nil => exact ⟨rfl, h⟩
  | cons r rs ih =>
    cases hr : r.processed with
    | false =>
      obtain ⟨hnone, hagrees⟩ := onDataReceived_of_not_processed (p := p) (m := m) hr
      rw [List.filter_cons_of_neg (by simp [hr])]
      simp only [receiveAll, hnone, Option.toList_none, List.nil_append]
      exact ih (hagrees.trans h)
    | true =>
      obtain ⟨hdata, hagrees⟩ := h.onDataReceived (p := p) r
      obtain ⟨hrest, hlast⟩ := ih hagrees
      rw [List.filter_cons_of_pos hr]
      simp only [receiveAll, hdata, hrest]
      exact ⟨trivial, hlast⟩

/-! ### The records of one host -/

/-- The processed calls of a host, in order. -/
def callsOf (host : String) (rs : List Received) : List Received :=
  rs.filter fun r => r.processed && r.info.hostID = host

/-- The record of a call, computed against a previous sample. -/
def recordOf (p : Platform) (last : PerfSample) (r : Received) : HostMonitoringData :=
  monitoringData p r.info (r.scope.getD default) r.now last

/-- The sample a call leaves for the next one. -/
def sampleOf (p : Platform) (r : Received) : PerfSample :=
  perfSample p r.info (calculateScore p r.info)

/-- The records of calls of one host, each against the sample of the one before. -/
def chain (p : Platform) : PerfSample → List Received → List HostMonitoringData
  | _, [] => []
  | last, r :: rs => recordOf p last r :: chain p (sampleOf p r) rs

theorem getElem?_chain (p : Platform) (last : PerfSample) (rs : List Received) (k : ℕ) :
    (chain p last rs)[k]? =
      rs[k]?.map (recordOf p (if k = 0 then last else (rs[k - 1]?.map (sampleOf p)).getD {})) := by
  induction rs generalizing last k with
  | nil => simp [chain]
  | cons r rs ih =>
    cases k with
    | zero => simp [chain]
    | succ k =>
      rw [chain, List.getElem?_cons_succ, ih, List.getElem?_cons_succ]
      cases k <;> simp

/-- What a processed call hands to the write queue, and the samples it leaves. -/
theorem onDataReceived_of_processed {r : Received} (h : r.processed = true) :
    (m.onDataReceived p r.info r.identity r.row r.now).2 =
        some (recordOf p (m.lastPerfSamples r.info.hostID) r) ∧
      (m.onDataReceived p r.info r.identity r.row r.now).1.lastPerfSamples =
        Function.update m.lastPerfSamples r.info.hostID (sampleOf p r) := by
  simp only [Received.processed, Bool.and_eq_true, decide_eq_true_eq] at h
  obtain ⟨scope, hscope⟩ := Option.isSome_iff_exists.mp h.1
  rw [onDataReceived_of_resolved hscope h.2]
  simp [recordOf, sampleOf, hscope]

/-- **The records of a host form a chain**: what the other hosts push in between does not
matter. -/
theorem enqueued_filter_eq (p : Platform) (m : HostManager) (host : String)
    (rs : List Received) :
    (receiveAll p m rs).2.filter (·.hostName = host) =
      chain p (m.lastPerfSamples host) (callsOf host rs) := by
  induction rs generalizing m with
  | nil => rfl
  | cons r rs ih =>
    simp only [receiveAll, List.filter_append]
    rw [ih]
    cases hr : r.processed with
    | false =>
      obtain ⟨hnone, hagrees⟩ := onDataReceived_of_not_processed (p := p) (m := m) hr
      simp [hnone, hagrees.lastPerfSamples, callsOf, hr]
    | true =>
      obtain ⟨hdata, hsamples⟩ := onDataReceived_of_processed (p := p) (m := m) hr
      have hname : (recordOf p (m.lastPerfSamples r.info.hostID) r).hostName = r.info.hostID := rfl
      rw [hdata, hsamples]
      by_cases hhost : r.info.hostID = host
      · subst hhost
        simp [callsOf, hr, chain, hname]
      · have hother : ¬host = r.info.hostID := fun h => hhost h.symm
        simp [callsOf, hr, hname, hhost, hother]

end HostManager

/-! ### Change rates in exact arithmetic -/

/-- A metric of a sample, and the change rate that is reported for it. -/
structure Metric where
  value : MonitorInfo → ℚ
  rate : HostMonitoringData → ℚ

/-- The metrics of the statistics of all processors. -/
def Metric.cpu (value : CpuStat → ℚ) (rate : HostMonitoringData → ℚ) : Metric where
  value info := value (info.selectAggregateCpuStat.getD {})
  rate := rate

/-- The metrics of the load. -/
def Metric.load (value : CpuLoad → ℚ) (rate : HostMonitoringData → ℚ) : Metric where
  value info := value (info.cpuLoad.getD {})
  rate := rate

/-- The metrics of the memory. -/
def Metric.mem (value : MemInfo → ℚ) (rate : HostMonitoringData → ℚ) : Metric where
  value info := value (info.memInfo.getD {})
  rate := rate

/-- The metrics of the first interface, in megabytes per second. -/
def Metric.net (value : NetInfo → ℚ) (rate : HostMonitoringData → ℚ) : Metric where
  value info := value (info.netInfo.head?.getD {}) / (1024 * 1024)
  rate := rate

/-- The metrics with a change rate. -/
def Metric.all : List Metric :=
  [.cpu (·.cpuPercent) (·.cpuPercentRate), .cpu (·.usrPercent) (·.usrPercentRate),
    .cpu (·.systemPercent) (·.systemPercentRate), .cpu (·.nicePercent) (·.nicePercentRate),
    .cpu (·.idlePercent) (·.idlePercentRate), .cpu (·.ioWaitPercent) (·.ioWaitPercentRate),
    .cpu (·.irqPercent) (·.irqPercentRate), .cpu (·.softIrqPercent) (·.softIrqPercentRate),
    .load (·.loadAvg1) (·.loadAvg1Rate), .load (·.loadAvg3) (·.loadAvg3Rate),
    .load (·.loadAvg15) (·.loadAvg15Rate), .mem (·.usedPercent) (·.memUsedPercentRate),
    .mem (·.total) (·.memTotalRate), .mem (·.free) (·.memFreeRate),
    .mem (·.avail) (·.memAvailRate), .net (·.rcvRate) (·.netInRateRate),
    .net (·.sendRate) (·.netOutRateRate)]

/-- The relative change from a previous value; zero if there is none or it is zero. -/
def relativeChange (x : ℚ) : Option ℚ → ℚ
  | none => 0
  | some y => if y = 0 then 0 else (x - y) / y

namespace HostManager

/-- Every rate of a record is the relative change of its metric. -/
theorem rates_recordOf (previous : Option Received) (r : Received) :
    Metric.all.map (·.rate (recordOf .exact ((previous.map (sampleOf .exact)).getD {}) r)) =
      Metric.all.map fun μ =>
        relativeChange (μ.value r.info) (previous.map fun q => μ.value q.info) := by
  cases previous with
  | none => simp [Metric.all, Metric.cpu, Metric.load, Metric.mem, Metric.net, recordOf,
      monitoringData, Platform.rate, relativeChange]
  | some q =>
    simp only [Metric.all, Metric.cpu, Metric.load, Metric.mem, Metric.net, List.map_cons,
      List.map_nil, Option.map_some, Option.getD_some]
    rfl

/-- **What a history of pushes leaves behind.** The calls that resolve to no scope or name no
host change nothing but the counters; and the records of a host carry, for every metric, the
relative change against exactly the processed sample of that host before. -/
theorem history_of_pushes (rs : List Received) :
    (∀ p : Platform,
      (receiveAll p .init rs).2 = (receiveAll p .init (rs.filter Received.processed)).2 ∧
        Agrees (receiveAll p .init rs).1
          (receiveAll p .init (rs.filter Received.processed)).1) ∧
      ∀ (host : String) (k : ℕ),
        ((receiveAll .exact .init rs).2.filter (·.hostName = host))[k]?.map
            (fun d => (d.hostScore.info, Metric.all.map (·.rate d))) =
          (callsOf host rs)[k]?.map fun r =>
            (r.info, Metric.all.map fun μ => relativeChange (μ.value r.info)
              (if k = 0 then none else (callsOf host rs)[k - 1]?.map fun q => μ.value q.info)) := by
  refine ⟨fun p => receiveAll_filter (Agrees.refl .init) rs, fun host k => ?_⟩
  rw [enqueued_filter_eq, getElem?_chain, Option.map_map]
  refine congrArg (fun f => Option.map f _) (funext fun r => ?_)
  refine Prod.ext rfl ?_
  cases k with
  | zero => exact rates_recordOf none r
  | succ k => exact rates_recordOf (callsOf host rs)[k]? r

end HostManager

end MonitorSystem
