import MonitorSystem.Manager.IngestOrder
import MonitorSystem.Manager.StoredRows
import MonitorSystem.Manager.WriteQueue

/-!
# The way of a sample through the manager

A push from its call to its row: `SetMonitorInfo` takes it and hands it to the dispatcher, or
runs the callback itself; a worker of the dispatcher runs the callback, `onDataReceived`; the
record it makes goes through the write queue to a writer, and `writeToMysql` asks the pool for
a connection and the database for an INSERT. The parts are the state machines of `Ingest` and
`WriteQueue` and the functions of `GrpcServer`, `HostManager` and `MysqlWriter`; here they are
put together as `manager/src/main.cpp` does.

A callback acts on the rest of the manager once, where it counts a drop or enters the write
queue, so it is one label; the label of a write ends it, with what the pool and the database
have answered.
-/

namespace MonitorSystem

namespace SampleAccounting

open MysqlWriter

/-! ### The manager as a whole -/

/-- How the manager is set up. The callback is always set; whether there is a dispatcher and
a pool is not. -/
structure Setup where
  cfg : ManagerConfig
  hash : String → ℕ
  platform : Platform
  hasDispatcher : Bool
  /-- `mysqlWritePool_` is not null. -/
  hasPool : Bool

/-- What the pool and the database answer to `writeToMysql`. -/
inductive WriteOutcome where
  /-- No connection within the time limit. -/
  | timeout
  /-- The INSERT into `server_performance` fails. -/
  | failed
  /-- It succeeds. -/
  | inserted
  deriving DecidableEq, Repr

/-- The state of the manager. The counters of the source are shared by its parts; here every
part has the share that it counts itself. -/
structure State (m : Setup) where
  server : GrpcServer
  ingest : Ingest.State Push (Ingest.shardCapacity m.cfg)
  /-- The pushes whose callback runs on the thread of the call. -/
  direct : List Push
  host : HostManager
  writes : WriteQueue.State HostMonitoringData (WriteQueue.capacity m.cfg)
  last : LastSamples
  /-- What `writeToMysql` counts. -/
  metrics : ManagerMetrics
  /-- The rows of `server_performance` that were inserted. -/
  rows : List Insert
  /-- How many pushes have passed the checks of `SetMonitorInfo`. -/
  taken : ℕ
  /-- The calls of `submitMonitorTask`. -/
  calls : List ℕ
  /-- How often `onDataReceived` was called. -/
  received : ℕ

/-- The labels: who moves, and what its environment answers. -/
inductive Action where
  /-- A call of `SetMonitorInfo`; if it submits a task, that is the call `c`. -/
  | call (c : ℕ) (metadata : List (String × String)) (request : Option MonitorInfo) (now : ℤ)
  /-- The dispatcher moves on its own. -/
  | ingest (a : Ingest.Action Push)
  /-- The worker of shard `i` runs the callback; the registry returns `row`. -/
  | receive (i : ℕ) (row : Option Registration) (now : ℤ)
  /-- The `n`-th of the calls that run the callback themselves does so. -/
  | receiveDirect (n : ℕ) (row : Option Registration) (now : ℤ)
  /-- Writer `i` comes out of its wait and looks at the queue. -/
  | iterate (i : ℕ)
  /-- Writer `i` takes the write mutex and calls `writeToMysql`. -/
  | acquire (i : ℕ)
  /-- `writeToMysql` of writer `i` runs and returns. -/
  | release (i : ℕ) (outcome : WriteOutcome)
  /-- `stop` of the host manager. -/
  | stop
  deriving DecidableEq, Repr

/-- The actions of the dispatcher that concern nobody else. -/
def standalone : Ingest.Action Push → Bool
  | .enter _ _ _ | .finish _ _ => false
  | _ => true

section Step

variable {m : Setup}

/-- The manager before the first call. -/
def start (m : Setup) : State m where
  server := ⟨fun _ => none, m.hasDispatcher, true⟩
  ingest := Ingest.init m.cfg
  direct := []
  host := .init
  writes := WriteQueue.start m.cfg
  last := .init
  metrics := {}
  rows := []
  taken := 0
  calls := []
  received := 0

/-- The callback. Without a pool the registry is not asked. -/
def onDataReceived (s : State m) (push : Push) (row : Option Registration) (now : ℤ) : State m :=
  let r := s.host.onDataReceived m.platform push.info push.identity
    (if m.hasPool then row else none) now
  { s with
    host := r.1
    writes := match r.2 with
      | some data => WriteQueue.enqueueMysqlWrite s.writes data
      | none => s.writes
    received := s.received + 1 }

/-- A record without a tenant, a team or a cluster. -/
def Unscoped (data : HostMonitoringData) : Prop :=
  data.scope.tenantId = "" ∨ data.scope.teamId = "" ∨ data.scope.clusterId = ""

instance : DecidablePred Unscoped := fun _ => inferInstanceAs (Decidable (_ ∨ _ ∨ _))

/-- The rows for `server_performance` among some statements. -/
def performanceRows (inserts : List Insert) : List Insert :=
  inserts.filter (·.table = .serverPerformance)

/-- **`writeToMysql`**, with what the pool and the database answer. -/
def writeToMysql (s : State m) (data : HostMonitoringData) (outcome : WriteOutcome) : State m :=
  if m.hasPool = false then
    { s with metrics := { s.metrics with mysqlErrors := s.metrics.mysqlErrors + 1 } }
  else if outcome = .timeout then
    { s with metrics := { s.metrics with poolTimeouts := s.metrics.poolTimeouts + 1 } }
  else if Unscoped data then
    { s with metrics := { s.metrics with
        droppedMonitorSamples := s.metrics.droppedMonitorSamples + 1 } }
  else
    let r := MysqlWriter.writeToMysql m.platform s.last data
    -- a failed INSERT is only logged
    { s with
      last := r.1
      rows := s.rows ++ if outcome = .inserted then performanceRows r.2 else [] }

/-- A step of the write queue. -/
def queueStep (s : State m) (a : WriteQueue.Action HostMonitoringData) : Option (State m) :=
  (WriteQueue.step m.cfg s.writes a).map fun writes => { s with writes }

/-- **One step of the manager.** -/
def step (m : Setup) (s : State m) : Action → Option (State m)
  | .call c metadata request now =>
    let r := s.server.setMonitorInfo metadata request now
    let s' := { s with
      server := r.2.1
      taken := s.taken + if r.1 = .OK then 1 else 0 }
    match r.2.2 with
    | .submit key push =>
      (Ingest.step m.cfg m.hash s.ingest (.enter c key push)).map fun ingest =>
        { s' with ingest, calls := s.calls ++ [c] }
    | .direct push => some { s' with direct := s.direct ++ [push] }
    | .none => some s'
  | .ingest a =>
    if standalone a then
      (Ingest.step m.cfg m.hash s.ingest a).map fun ingest => { s with ingest }
    else none
  | .receive i row now =>
    match s.ingest.worker i with
    | .executing t =>
      (Ingest.step m.cfg m.hash s.ingest (.finish i .returned)).map fun ingest =>
        onDataReceived { s with ingest } t.run row now
    | _ => none
  | .receiveDirect n row now =>
    s.direct[n]?.map fun push =>
      onDataReceived { s with direct := s.direct.eraseIdx n } push row now
  | .iterate i => queueStep s (.iterate i)
  | .acquire i => queueStep s (.acquire i)
  | .release i outcome =>
    match s.writes.writers[i]? with
    | some (.writing x) =>
      (queueStep s (.release i)).map fun s' => writeToMysql s' x.data outcome
    | _ => none
  | .stop => queueStep s .stop

end Step

/-- **`dropped_monitor_samples`**: what all the parts have counted. -/
def State.droppedMonitorSamples {m : Setup} (s : State m) : ℕ :=
  s.ingest.metrics.droppedMonitorSamples + s.host.metrics.droppedMonitorSamples +
    s.writes.metrics.droppedMonitorSamples + s.metrics.droppedMonitorSamples

/-- **All queues have drained**: no call and no callback is under way, no task and no record is
queued, and no writer has one. -/
structure State.Drained {m : Setup} (s : State m) : Prop where
  calls : ∀ c, (s.ingest.submit c).pending = none
  tasks : ∀ i, (s.ingest.queue i).items = []
  workers : ∀ i, (s.ingest.worker i).current = []
  direct : s.direct = []
  records : s.writes.queue.items = []
  writers : ∀ pc ∈ s.writes.writers, pc = .waiting ∨ pc = .returned

/-! ### What the parts do -/

section Parts

/-- A scope that is resolved is complete, and the registry had a row. -/
theorem exists_row_of_resolved {identity : WorkerIdentity} {row : Option Registration}
    {scope : WorkerScope} (h : resolveWorkerScope identity row = some scope) :
    row ≠ none ∧ scope.tenantId ≠ "" ∧ scope.teamId ≠ "" ∧ scope.clusterId ≠ "" := by
  unfold resolveWorkerScope at h
  split at h
  · cases h
  · obtain ⟨r, rfl, hr⟩ := Option.bind_eq_some_iff.mp h
    simp only at hr
    split at hr
    · cases hr
    · split at hr
      · next hscope =>
        obtain rfl := Option.some.inj hr
        exact ⟨by simp, hscope⟩
      · cases hr

/-- **What `onDataReceived` makes of a push that names its host**: a drop that is counted, or a
record with a scope. -/
theorem onDataReceived_cases (p : Platform) (h : HostManager) {info : MonitorInfo}
    (hid : info.hostID ≠ "") (identity : WorkerIdentity) (row : Option Registration) (now : ℤ) :
    ((h.onDataReceived p info identity row now).2 = none ∧
      (h.onDataReceived p info identity row now).1.metrics.droppedMonitorSamples =
        h.metrics.droppedMonitorSamples + 1) ∨
    ∃ data, (h.onDataReceived p info identity row now).2 = some data ∧ ¬ Unscoped data ∧
      row ≠ none ∧
      (h.onDataReceived p info identity row now).1.metrics.droppedMonitorSamples =
        h.metrics.droppedMonitorSamples := by
  cases hscope : resolveWorkerScope identity row with
  | none =>
    left
    simp [HostManager.onDataReceived, hscope]
  | some scope =>
    obtain ⟨hrow, htenant, hteam, hcluster⟩ := exists_row_of_resolved hscope
    rw [HostManager.onDataReceived_of_resolved hscope hid]
    exact .inr ⟨_, rfl, by simp [Unscoped, monitoringData, htenant, hteam, hcluster], hrow, rfl⟩

/-- **A record with a scope has one row of `server_performance`.** -/
theorem performanceRows_writeToMysql (p : Platform) (l : LastSamples) {data : HostMonitoringData}
    (h : ¬ Unscoped data) : performanceRows (MysqlWriter.writeToMysql p l data).2 =
      [performanceInsert p data (l.lastDiskUtil data.hostName)] :=
  filter_writeToMysql p l data h .serverPerformance

/-- **What `SetMonitorInfo` does, with a callback**: it refuses, or takes the push and hands it
over with a host. -/
theorem setMonitorInfo_cases {g : GrpcServer} (hcallback : g.hasCallback = true)
    (metadata : List (String × String)) (request : Option MonitorInfo) (now : ℤ) :
    (g.setMonitorInfo metadata request now).2.1.hasCallback = true ∧
      (((g.setMonitorInfo metadata request now).1 ≠ .OK ∧
          (g.setMonitorInfo metadata request now).2.2 = .none) ∨
        ((g.setMonitorInfo metadata request now).1 = .OK ∧
          ∃ push : Push, push.info.hostID ≠ "" ∧
            ((∃ key, (g.setMonitorInfo metadata request now).2.2 = .submit key push) ∨
              (g.setMonitorInfo metadata request now).2.2 = .direct push))) := by
  unfold GrpcServer.setMonitorInfo
  cases request with
  | none => exact ⟨hcallback, .inl ⟨by simp [Status.OK], rfl⟩⟩
  | some info =>
    simp only
    split
    · exact ⟨hcallback, .inl ⟨by simp [Status.OK], rfl⟩⟩
    · split
      · exact ⟨hcallback, .inl ⟨by simp [Status.OK], rfl⟩⟩
      · next hid =>
        refine ⟨hcallback, .inr ⟨rfl, ⟨info, GrpcServer.workerIdentity metadata⟩, ?_, ?_⟩⟩
        · rwa [← info.resolveHostID_eq]
        · by_cases hdispatcher : g.hasDispatcher = true
          · exact .inl ⟨_, if_pos ⟨hdispatcher, hcallback⟩⟩
          · exact .inr (if_neg fun h => hdispatcher h.1)

end Parts

/-! ### What each action requires and does -/

section Inversion

variable {m : Setup} {s s' : State m}

theorem step_ingest {a : Ingest.Action Push} (hs : step m s (.ingest a) = some s') :
    standalone a = true ∧ ∃ ingest, Ingest.step m.cfg m.hash s.ingest a = some ingest ∧
      s' = { s with ingest } := by
  simp only [step, Option.ite_none_right_eq_some, Option.map_eq_some_iff] at hs
  obtain ⟨ha, ingest, hi, rfl⟩ := hs
  exact ⟨ha, ingest, hi, rfl⟩

theorem step_receive {i : ℕ} {row : Option Registration} {now : ℤ}
    (hs : step m s (.receive i row now) = some s') :
    ∃ t ingest, s.ingest.worker i = .executing t ∧
      Ingest.step m.cfg m.hash s.ingest (.finish i .returned) = some ingest ∧
      s' = onDataReceived { s with ingest } t.run row now := by
  simp only [step] at hs
  split at hs
  · next t ht =>
    obtain ⟨ingest, hi, rfl⟩ := Option.map_eq_some_iff.mp hs
    exact ⟨t, ingest, ht, hi, rfl⟩
  · cases hs

theorem step_receiveDirect {n : ℕ} {row : Option Registration} {now : ℤ}
    (hs : step m s (.receiveDirect n row now) = some s') :
    ∃ push, s.direct[n]? = some push ∧
      s' = onDataReceived { s with direct := s.direct.eraseIdx n } push row now := by
  obtain ⟨push, hpush, rfl⟩ := Option.map_eq_some_iff.mp hs
  exact ⟨push, hpush, rfl⟩

theorem queueStep_eq_some {a : WriteQueue.Action HostMonitoringData}
    (hs : queueStep s a = some s') :
    ∃ writes, WriteQueue.step m.cfg s.writes a = some writes ∧ s' = { s with writes } := by
  obtain ⟨writes, hw, rfl⟩ := Option.map_eq_some_iff.mp hs
  exact ⟨writes, hw, rfl⟩

theorem step_release {i : ℕ} {outcome : WriteOutcome}
    (hs : step m s (.release i outcome) = some s') :
    ∃ x writes, s.writes.writers[i]? = some (.writing x) ∧
      WriteQueue.step m.cfg s.writes (.release i) = some writes ∧
      s' = writeToMysql { s with writes } x.data outcome := by
  simp only [step] at hs
  split at hs
  · next x hx =>
    obtain ⟨t, ht, rfl⟩ := Option.map_eq_some_iff.mp hs
    obtain ⟨writes, hw, rfl⟩ := queueStep_eq_some ht
    exact ⟨x, writes, hx, hw, rfl⟩
  · cases hs

/-- A call is refused, handed to the dispatcher, or runs the callback itself. -/
theorem step_call (hcallback : s.server.hasCallback = true) {c : ℕ}
    {metadata : List (String × String)} {request : Option MonitorInfo} {now : ℤ}
    (hs : step m s (.call c metadata request now) = some s') :
    ∃ server : GrpcServer, server.hasCallback = true ∧
      (s' = { s with server } ∨ ∃ push : Push, push.info.hostID ≠ "" ∧
        ((∃ key ingest, Ingest.step m.cfg m.hash s.ingest (.enter c key push) = some ingest ∧
            s' = { s with server, ingest, taken := s.taken + 1, calls := s.calls ++ [c] }) ∨
          s' = { s with server, taken := s.taken + 1, direct := s.direct ++ [push] })) := by
  obtain ⟨hserver, hcases⟩ := setMonitorInfo_cases hcallback metadata request now
  refine ⟨_, hserver, ?_⟩
  simp only [step] at hs
  obtain ⟨hrefused, hnone⟩ | ⟨hok, push, hid, ⟨key, hsubmit⟩ | hdirect⟩ := hcases
  · rw [hnone, if_neg hrefused] at hs
    exact .inl (Option.some.inj hs).symm
  · rw [hsubmit, if_pos hok] at hs
    obtain ⟨ingest, hi, rfl⟩ := Option.map_eq_some_iff.mp hs
    exact .inr ⟨push, hid, .inl ⟨key, ingest, hi, rfl⟩⟩
  · rw [hdirect, if_pos hok] at hs
    exact .inr ⟨push, hid, .inr (Option.some.inj hs).symm⟩

end Inversion

end SampleAccounting

end MonitorSystem
