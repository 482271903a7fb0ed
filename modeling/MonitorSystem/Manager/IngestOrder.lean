import MonitorSystem.Manager.GrpcServer
import MonitorSystem.Manager.Ingest

/-!
# The order in which the samples of a host are processed

A partition key hashes to one shard, a shard has one queue and one worker, and the worker
runs one task at a time. So the tasks of one key are executed one after the other, in the
order in which their queue writes succeeded, whatever other keys share the shard and
whichever tasks throw: `Ingest.SerialFifo` says so of a state, and
`Ingest.serial_fifo_by_host` of every run.

`SetMonitorInfo` submits a push under the host id that `onDataReceived` computes again when
the task runs. The tasks that meet in the state `onDataReceived` keeps for a host are
therefore the tasks of one key.
-/

namespace MonitorSystem

namespace Ingest

variable {ρ : Type} {cfg : ManagerConfig} {hash : String → ℕ}
  {s s' : State ρ (shardCapacity cfg)}

/-- **Serial execution in order of arrival** of the tasks that `key` identifies. -/
structure SerialFifo (key : Task ρ → String) (s : State ρ (shardCapacity cfg)) : Prop where
  /-- The tasks of a key are begun in the order in which they were accepted. -/
  order : ∀ k, s.begun.filter (fun t => key t = k) <+: s.accepted.filter fun t => key t = k
  /-- They are begun one at a time: those that have ended come first, and at most one
  worker is running one of the key. -/
  serial : ∀ k, ∃ i,
    s.begun.filter (fun t => key t = k) = s.ended.filter (fun t => key t = k) ++
      (s.worker i).current.filter (fun t => key t = k) ∧
    ∀ j t, s.worker j = .executing t → key t = k → j = i
  /-- No task is begun twice. -/
  once : s.begun.Nodup
  /-- Only accepted tasks are begun. -/
  accepted : ∀ t ∈ s.begun, t ∈ s.accepted

/-- **The tasks of one partition key are executed serially, in order.** -/
theorem Histories.serialFifo (h : Histories cfg hash s) : SerialFifo Task.partitionKey s := by
  have hshard : ∀ (k : String) (t : Task ρ), decide (t.partitionKey = k) = true →
      onShard cfg hash (shardIndexFor cfg hash k) t = true := by
    intro k t ht
    simp only [decide_eq_true_eq] at ht
    simp [onShard, ht]
  refine ⟨fun k => begun_isPrefix h (hshard k), fun k => ?_, begun_nodup h,
    fun t ht => h.accepted_of_begun ht⟩
  refine ⟨shardIndexFor cfg hash k, begun_eq_ended_append h (hshard k), fun j t ht hk => ?_⟩
  have hon := h.onShard_of_executing ht
  simp only [onShard, decide_eq_true_eq] at hon
  rw [← hk]
  exact hon.symm

/-- A key that agrees with another one on the accepted tasks identifies the same ones. -/
theorem SerialFifo.congr {key key' : Task ρ → String} (h : SerialFifo key s)
    (hh : Histories cfg hash s) (hkey : ∀ t ∈ s.accepted, key' t = key t) :
    SerialFifo key' s := by
  have hfilter : ∀ (l : List (Task ρ)) (k : String), (∀ t ∈ l, t ∈ s.accepted) →
      l.filter (fun t => key' t = k) = l.filter fun t => key t = k := by
    intro l k hl
    refine List.filter_congr fun t ht => ?_
    rw [hkey t (hl t ht)]
  refine ⟨fun k => ?_, fun k => ?_, h.once, h.accepted⟩
  · rw [hfilter s.begun k h.accepted, hfilter s.accepted k fun t ht => ht]
    exact h.order k
  · obtain ⟨i, heq, huniq⟩ := h.serial k
    refine ⟨i, ?_, fun j t ht hk => huniq j t ht ?_⟩
    · rw [hfilter s.begun k h.accepted,
        hfilter s.ended k fun t ht => h.accepted t (hh.begun_of_ended ht), heq,
        hfilter (s.worker i).current k fun t ht => ?_]
      cases hw : s.worker i with
      | executing u =>
        rw [hw] at ht
        obtain rfl : t = u := List.mem_singleton.mp ht
        exact h.accepted t (hh.begun_of_executing hw)
      | _ =>
        rw [hw] at ht
        cases ht
    · rw [← hkey t (h.accepted t (hh.begun_of_executing ht))]
      exact hk

/-! ### What is handed to the dispatcher stays as it was handed over -/

/-- The key and the work of a call that has not returned. -/
def SubmitPc.pending : SubmitPc ρ → Option (String × ρ)
  | .entered key run => some (key, run)
  | .loaded key run => some (key, run)
  | _ => none

/-- Every task a call is about to submit, or has submitted, satisfies `P`. -/
structure Carries (P : String → ρ → Prop) (s : State ρ (shardCapacity cfg)) : Prop where
  pending : ∀ c key run, (s.submit c).pending = some (key, run) → P key run
  accepted : ∀ t ∈ s.accepted, P t.partitionKey t.run

/-- The calls of a run are made with a key and a work that satisfy `P`. -/
def Submits (P : String → ρ → Prop) : Action ρ → Prop
  | .enter _ key run => P key run
  | _ => True

namespace Carries

variable {P : String → ρ → Prop}

theorem init : Carries P (Ingest.init cfg : State ρ (shardCapacity cfg)) where
  pending c key run h := by simp [Ingest.init, SubmitPc.pending] at h
  accepted t h := by simp [Ingest.init] at h

theorem frame (h : Carries P s) (hc : s'.submit = s.submit) (ha : s'.accepted = s.accepted) :
    Carries P s' where
  pending c := hc ▸ h.pending c
  accepted := ha ▸ h.accepted

/-- A call moves on with the key and the work it was made with, or returns. -/
theorem move (h : Carries P s) {c : ℕ} {pc : SubmitPc ρ}
    (hpc : ∀ key run, pc.pending = some (key, run) → P key run)
    (hc : s'.submit = Function.update s.submit c pc)
    (ha : ∀ t ∈ s'.accepted, P t.partitionKey t.run) : Carries P s' where
  pending d key run hd := by
    rcases eq_or_ne d c with rfl | hdc
    · rw [hc, Function.update_self] at hd
      exact hpc key run hd
    · rw [hc, Function.update_of_ne hdc] at hd
      exact h.pending d key run hd
  accepted := ha

/-- **Every action keeps what was handed over.** -/
theorem step (h : Carries P s) {a : Action ρ} (hP : Submits P a)
    (hs : Ingest.step cfg hash s a = some s') : Carries P s' := by
  -- a call that is made, or goes on, with a key and a work that satisfy `P`
  have hgo : ∀ {pc : SubmitPc ρ} {key : String} {run : ρ}, pc.pending = some (key, run) →
      P key run → ∀ key' run', pc.pending = some (key', run') → P key' run' := by
    intro pc key run hpc hkr key' run' hpc'
    rw [hpc] at hpc'
    obtain ⟨rfl, rfl⟩ : key = key' ∧ run = run' := by simpa using hpc'
    exact hkr
  have hreturn : ∀ (r : Bool) (key : String) (run : ρ),
      (SubmitPc.returned r : SubmitPc ρ).pending = some (key, run) → P key run := by
    rintro r key run ⟨⟩
  cases a with
  | startExchange =>
    obtain ⟨-, rfl⟩ := step_startExchange hs
    exact h.frame rfl rfl
  | spawn =>
    obtain ⟨k, -, -, rfl⟩ := step_spawn hs
    exact h.frame rfl rfl
  | startReturn =>
    obtain ⟨-, rfl⟩ := step_startReturn hs
    exact h.frame rfl rfl
  | enter c key run =>
    obtain ⟨-, rfl⟩ := step_enter hs
    exact h.move (hgo rfl hP) rfl h.accepted
  | load c =>
    obtain ⟨key, run, hc, rfl | rfl⟩ := step_load hs
    · exact h.move (hgo rfl (h.pending c key run (by rw [hc]; rfl))) rfl h.accepted
    · exact h.move (hreturn false) rfl h.accepted
  | write c =>
    obtain ⟨key, run, hc, ⟨q, -, rfl⟩ | ⟨-, rfl⟩⟩ := step_write hs
    · refine h.move (hreturn true) rfl fun t ht => ?_
      rcases List.mem_append.mp ht with ht | ht
      · exact h.accepted t ht
      · obtain rfl := List.mem_singleton.mp ht
        exact h.pending c key run (by rw [hc]; rfl)
    · exact h.move (hreturn false) rfl h.accepted
  | testRunning i =>
    obtain ⟨-, rfl⟩ := step_testRunning hs
    exact h.frame rfl rfl
  | testSize i =>
    obtain ⟨-, rfl⟩ := step_testSize hs
    exact h.frame rfl rfl
  | read i =>
    obtain ⟨-, ⟨t, q, -, rfl⟩ | rfl⟩ := step_read hs <;> exact h.frame rfl rfl
  | finish i how =>
    obtain ⟨t, -, rfl⟩ := step_finish hs
    exact h.frame rfl rfl
  | stopExchange =>
    obtain ⟨-, rfl⟩ := step_stopExchange hs
    exact h.frame rfl rfl
  | join =>
    obtain ⟨k, -, -, rfl⟩ := step_join hs
    exact h.frame rfl rfl
  | stopReturn =>
    obtain ⟨-, rfl⟩ := step_stopReturn hs
    exact h.frame rfl rfl

end Carries

/-! ### The pushes of a host -/

/-- A task that some `SetMonitorInfo` call hands to the dispatcher. -/
def FromSetMonitorInfo (key : String) (push : Push) : Prop :=
  ∃ (server : GrpcServer) (metadata : List (String × String)) (request : Option MonitorInfo)
    (now : ℤ), (server.setMonitorInfo metadata request now).2.2 = .submit key push

/-- **Per-host serial ingestion, in order.** In every run of a dispatcher – any number of
shards, any hash, any interleaving of the calls with the workers, tasks that throw and
queues that are full included – the tasks of one partition key are executed one at a time,
in the order in which their queue writes succeeded, and each at most once. The partition
key that `SetMonitorInfo` computes is the host id under which `onDataReceived` keeps its
previous sample, for every message; so in every run whose tasks come from
`SetMonitorInfo`, the same holds of the pushes that share a previous sample. -/
theorem serial_fifo_by_host :
    (∀ (ρ : Type) (cfg : ManagerConfig) (hash : String → ℕ) (acts : List (Action ρ))
      (s : State ρ (shardCapacity cfg)), Runs.run (step cfg hash) (init cfg) acts = some s →
      SerialFifo Task.partitionKey s) ∧
    (∀ info : MonitorInfo, info.resolveHostID = info.hostID) ∧
    (∀ (cfg : ManagerConfig) (hash : String → ℕ) (acts : List (Action Push))
      (s : State Push (shardCapacity cfg)), Runs.run (step cfg hash) (init cfg) acts = some s →
      (∀ a ∈ acts, Submits FromSetMonitorInfo a) →
      SerialFifo (fun t => t.run.info.hostID) s) := by
  refine ⟨fun ρ cfg hash acts s hr => (run_invariants hr).2.serialFifo,
    MonitorInfo.resolveHostID_eq, fun cfg hash acts s hr hacts => ?_⟩
  obtain ⟨-, hh⟩ := run_invariants hr
  have hcarry : Carries FromSetMonitorInfo s :=
    Runs.run_invariant_along (fun _ _ _ h hP hs => h.step hP hs) .init
      (Runs.along_of_forall hacts) hr
  refine hh.serialFifo.congr hh fun t ht => ?_
  obtain ⟨server, metadata, request, now, hsub⟩ := hcarry.accepted t ht
  exact (GrpcServer.partitionKey_of_submit hsub).1.symm

/-- A server with a dispatcher and a callback. -/
def connectedServer : GrpcServer := ⟨fun _ => none, true, true⟩

/-- A push of a host, as `SetMonitorInfo` hands it over. -/
def hostPush (cpuPercent : ℚ) : Push where
  info :=
    { hostInfo := some ⟨"web", "10.0.0.1"⟩
      cpuStat := [{ cpuName := "all", cpuPercent := cpuPercent }] }
  identity := ⟨"worker", "token"⟩

theorem fromSetMonitorInfo_hostPush (cpuPercent : ℚ) :
    FromSetMonitorInfo "web_10.0.0.1" (hostPush cpuPercent) :=
  ⟨connectedServer,
    [("x-monitor-worker-id", "worker"), ("x-monitor-worker-token", "token")],
    some (hostPush cpuPercent).info, 0, rfl⟩

/-- Two pushes of one host; the task of the first one throws. -/
def twoPushes : List (Action Push) :=
  [.startExchange, .spawn, .startReturn, .enter 0 "web_10.0.0.1" (hostPush 50),
    .enter 1 "web_10.0.0.1" (hostPush 100), .load 0, .load 1, .write 1, .write 0,
    .testRunning 0, .read 0, .finish 0 .threw, .testRunning 0, .read 0]

theorem serial_fifo_by_host_twoPushes : ∃ s,
    Runs.run (step { ingestShardCount := 1 } fun _ => 0) (init { ingestShardCount := 1 })
      twoPushes = some s ∧
    s.accepted.map Task.call = [1, 0] ∧ s.begun.map Task.call = [1, 0] ∧
    s.ended.map Task.call = [1] ∧ SerialFifo (fun t => t.run.info.hostID) s := by
  refine ⟨_, rfl, rfl, rfl, rfl, serial_fifo_by_host.2.2 { ingestShardCount := 1 } (fun _ => 0)
    twoPushes _ rfl fun a ha => ?_⟩
  simp only [twoPushes, List.mem_cons, List.not_mem_nil, or_false] at ha
  rcases ha with rfl | rfl | rfl | rfl | rfl | rfl | rfl | rfl | rfl | rfl | rfl | rfl | rfl | rfl
  case inr.inr.inr.inl => exact fromSetMonitorInfo_hostPush 50
  case inr.inr.inr.inr.inl => exact fromSetMonitorInfo_hostPush 100
  all_goals exact trivial

end Ingest

end MonitorSystem
