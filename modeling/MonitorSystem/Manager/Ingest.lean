import MonitorSystem.Library.Fifo
import MonitorSystem.Library.Lists
import MonitorSystem.Library.Runs
import MonitorSystem.Manager.Basic
import Mathlib.Data.List.Nodup
import Mathlib.Logic.Function.Basic

/-!
# The ingest side of the dispatcher

`ManagerDispatcher` (`manager/src/ManagerDispatcher.cpp`) gives each ingest shard a
bounded queue and one worker thread, and sends a task to the shard its partition
key hashes to. This file is its state machine: the owner's `start` and `stop`, any
number of concurrent `submitMonitorTask` calls, and the worker loops, each cut at
the atomic actions of the source – a load of `running_`, a write or a read of a
queue, a test of its size, the compare-exchange, a join.

`folly::MPMCQueue` is taken as a linearizable bounded queue, so one queue operation
is one action on a `Fifo`. `std::hash` is a parameter: nothing depends on which
function it is, only on its being one.

Besides the program's own state, `Ingest.State` keeps three histories – the tasks
in the order their writes succeeded, in the order they were started, and in the
order they ended – in which the properties are stated.
-/

namespace MonitorSystem

namespace Ingest

variable {ρ : Type}

/-- A `ManagerTask` of kind `MonitorPush`: the call that submitted it, its
partition key and what it runs. -/
structure Task (ρ : Type) where
  /-- The `submitMonitorTask` call the task comes from. -/
  call : ℕ
  partitionKey : String
  run : ρ
  deriving DecidableEq, Repr

/-- Where a `submitMonitorTask` call stands. -/
inductive SubmitPc (ρ : Type) where
  /-- Not made yet. -/
  | idle
  /-- Called, about to load `running_`. -/
  | entered (key : String) (run : ρ)
  /-- `running_` was true; about to write the queue. -/
  | loaded (key : String) (run : ρ)
  /-- Returned to its caller. -/
  | returned (result : Bool)
  deriving DecidableEq, Repr

/-- Where the worker of a shard stands. -/
inductive WorkerPc (ρ : Type) where
  /-- `start` has not created the thread yet. -/
  | unborn
  /-- About to load `running_` in the loop condition. -/
  | testRunning
  /-- `running_` was false; about to test the size of the queue. -/
  | testSize
  /-- In the loop, about to read the queue. -/
  | reading
  /-- Running a task. -/
  | executing (task : Task ρ)
  /-- Returned from `ingestWorkerLoop`. -/
  | exited
  deriving DecidableEq, Repr

/-- Where the owner of the dispatcher stands. -/
inductive OwnerPc where
  | constructed
  /-- In `start`, with the workers of the shards below `i` created. -/
  | starting (i : ℕ)
  | started
  /-- In `stop`, with the workers of the shards below `i` joined. -/
  | joining (i : ℕ)
  /-- `stop` has returned. -/
  | stopped
  deriving DecidableEq, Repr

/-- How a task ends: it returns, or it throws and the worker catches. -/
inductive TaskEnd where
  | returned
  | threw
  deriving DecidableEq, Repr

/-- The number of shards: at least one, whatever is configured. -/
def shardCount (cfg : ManagerConfig) : ℕ := max 1 cfg.ingestShardCount

/-- The capacity of each shard's queue: at least one, whatever is configured. -/
def shardCapacity (cfg : ManagerConfig) : ℕ := max 1 cfg.ingestQueueCapacityPerShard

theorem shardCount_pos (cfg : ManagerConfig) : 0 < shardCount cfg := by
  unfold shardCount
  omega

theorem shardCapacity_pos (cfg : ManagerConfig) : 0 < shardCapacity cfg := by
  unfold shardCapacity
  omega

/-- `shardIndexFor`: the shard of a partition key. -/
def shardIndexFor (cfg : ManagerConfig) (hash : String → ℕ) (key : String) : ℕ :=
  hash key % shardCount cfg

theorem shardIndexFor_lt (cfg : ManagerConfig) (hash : String → ℕ) (key : String) :
    shardIndexFor cfg hash key < shardCount cfg :=
  Nat.mod_lt _ (shardCount_pos cfg)

/-- The state of the ingest side. -/
structure State (ρ : Type) (cap : ℕ) where
  running : Bool
  owner : OwnerPc
  queue : ℕ → Fifo (Task ρ) cap
  worker : ℕ → WorkerPc ρ
  submit : ℕ → SubmitPc ρ
  metrics : ManagerMetrics
  /-- The tasks whose queue write succeeded, in the order of the writes. -/
  accepted : List (Task ρ)
  /-- The tasks a worker has started, in the order it did. -/
  begun : List (Task ρ)
  /-- The tasks that have ended, in the order they did. -/
  ended : List (Task ρ)

/-- The labels: who moves, and what its environment answers. -/
inductive Action (ρ : Type) where
  /-- `start`: the compare-exchange of `running_`. -/
  | startExchange
  /-- `start`: the worker thread of the next shard. -/
  | spawn
  /-- `start` returns. -/
  | startReturn
  /-- A gRPC thread makes the call `c` of `submitMonitorTask`. -/
  | enter (c : ℕ) (key : String) (run : ρ)
  /-- `enqueueIngest` of call `c`: the load of `running_`. -/
  | load (c : ℕ)
  /-- `enqueueIngest` of call `c`: the queue write. -/
  | write (c : ℕ)
  /-- The worker of shard `i` loads `running_`. -/
  | testRunning (i : ℕ)
  /-- The worker of shard `i` tests the size of its queue. -/
  | testSize (i : ℕ)
  /-- The worker of shard `i` reads its queue. -/
  | read (i : ℕ)
  /-- The task the worker of shard `i` is running ends. -/
  | finish (i : ℕ) (how : TaskEnd)
  /-- `stop`: the compare-exchange of `running_`. -/
  | stopExchange
  /-- `stop`: the join of the next shard's worker. -/
  | join
  /-- `stop` returns. -/
  | stopReturn
  deriving DecidableEq, Repr

section Step

variable (cfg : ManagerConfig) (hash : String → ℕ)

/-- The dispatcher as its constructor leaves it. -/
def init : State ρ (shardCapacity cfg) where
  running := false
  owner := .constructed
  queue := fun _ => .empty
  worker := fun _ => .unborn
  submit := fun _ => .idle
  metrics := {}
  accepted := []
  begun := []
  ended := []

variable {cfg} in
/-- The owner moves. -/
def moveOwner (s : State ρ (shardCapacity cfg)) (pc : OwnerPc) : State ρ (shardCapacity cfg) :=
  { s with owner := pc }

variable {cfg} in
/-- The worker of shard `i` moves. -/
def moveWorker (s : State ρ (shardCapacity cfg)) (i : ℕ) (pc : WorkerPc ρ) :
    State ρ (shardCapacity cfg) :=
  { s with worker := Function.update s.worker i pc }

variable {cfg} in
/-- The call `c` moves. -/
def moveCall (s : State ρ (shardCapacity cfg)) (c : ℕ) (pc : SubmitPc ρ) :
    State ρ (shardCapacity cfg) :=
  { s with submit := Function.update s.submit c pc }

variable {cfg} in
/-- A `submitMonitorTask` call returns `false`: the sample is counted as rejected
and as dropped. -/
def reject (s : State ρ (shardCapacity cfg)) (c : ℕ) : State ρ (shardCapacity cfg) :=
  { s with
    submit := Function.update s.submit c (.returned false)
    metrics := { s.metrics with
      queueRejected := s.metrics.queueRejected + 1
      droppedMonitorSamples := s.metrics.droppedMonitorSamples + 1 } }

variable {cfg} in
/-- The queue write of a call succeeds: the task enters the queue of its shard and
the call returns `true`. -/
def accept (s : State ρ (shardCapacity cfg)) (i : ℕ) (t : Task ρ)
    (q : Fifo (Task ρ) (shardCapacity cfg)) : State ρ (shardCapacity cfg) :=
  { s with
    queue := Function.update s.queue i q
    submit := Function.update s.submit t.call (.returned true)
    metrics := { s.metrics with workerRequests := s.metrics.workerRequests + 1 }
    accepted := s.accepted ++ [t] }

variable {cfg} in
/-- The worker of shard `i` has read a task and runs it. -/
def begin (s : State ρ (shardCapacity cfg)) (i : ℕ) (t : Task ρ)
    (q : Fifo (Task ρ) (shardCapacity cfg)) : State ρ (shardCapacity cfg) :=
  { s with
    queue := Function.update s.queue i q
    worker := Function.update s.worker i (.executing t)
    begun := s.begun ++ [t] }

variable {cfg} in
/-- The task of shard `i` ends; an exception is caught and counted. -/
def finish (s : State ρ (shardCapacity cfg)) (i : ℕ) (t : Task ρ) (how : TaskEnd) :
    State ρ (shardCapacity cfg) :=
  { s with
    worker := Function.update s.worker i .testRunning
    ended := s.ended ++ [t]
    metrics := { s.metrics with
      taskErrors := s.metrics.taskErrors + if how = .threw then 1 else 0 } }

/-- **One atomic action of the ingest side.** The shards are never empty
(`Ingest.shardCount_pos`), so `enqueueIngest` only tests `running_`. A
compare-exchange that fails makes `start` or `stop` return at once and changes
nothing, so only the successful ones are labels. -/
def step (s : State ρ (shardCapacity cfg)) : Action ρ → Option (State ρ (shardCapacity cfg))
  | .startExchange =>
    if s.owner = .constructed ∧ s.running = false then
      some (moveOwner { s with running := true } (.starting 0))
    else none
  | .spawn =>
    match s.owner with
    | .starting i =>
      if i < shardCount cfg then
        some (moveOwner (moveWorker s i .testRunning) (.starting (i + 1)))
      else none
    | _ => none
  | .startReturn =>
    if s.owner = .starting (shardCount cfg) then some (moveOwner s .started) else none
  | .enter c key run =>
    match s.submit c with
    | .idle => some (moveCall s c (.entered key run))
    | _ => none
  | .load c =>
    match s.submit c with
    | .entered key run =>
      if s.running then some (moveCall s c (.loaded key run)) else some (reject s c)
    | _ => none
  | .write c =>
    match s.submit c with
    | .loaded key run =>
      match (s.queue (shardIndexFor cfg hash key)).write ⟨c, key, run⟩ with
      | some q => some (accept s (shardIndexFor cfg hash key) ⟨c, key, run⟩ q)
      | none => some (reject s c)
    | _ => none
  | .testRunning i =>
    match s.worker i with
    | .testRunning => some (moveWorker s i (if s.running then .reading else .testSize))
    | _ => none
  | .testSize i =>
    match s.worker i with
    | .testSize => some (moveWorker s i (if 0 < (s.queue i).size then .reading else .exited))
    | _ => none
  | .read i =>
    match s.worker i with
    | .reading =>
      match (s.queue i).read with
      | some (t, q) => some (begin s i t q)
      -- an empty queue: the worker sleeps and tests again
      | none => some (moveWorker s i .testRunning)
    | _ => none
  | .finish i how =>
    match s.worker i with
    | .executing t => some (finish s i t how)
    | _ => none
  | .stopExchange =>
    if s.owner = .started ∧ s.running = true then
      some (moveOwner { s with running := false } (.joining 0))
    else none
  | .join =>
    match s.owner with
    | .joining i =>
      match s.worker i with
      | .exited => if i < shardCount cfg then some (moveOwner s (.joining (i + 1))) else none
      | _ => none
    | _ => none
  | .stopReturn =>
    if s.owner = .joining (shardCount cfg) then some (moveOwner s .stopped) else none

end Step

/-! ### What each action requires and does -/

section Inversion

variable {cfg : ManagerConfig} {hash : String → ℕ} {s s' : State ρ (shardCapacity cfg)}
  {c i : ℕ}

theorem step_startExchange (hs : step cfg hash s .startExchange = some s') :
    s.owner = .constructed ∧ s' = moveOwner { s with running := true } (.starting 0) := by
  simp only [step, Option.ite_none_right_eq_some, Option.some.injEq] at hs
  exact ⟨hs.1.1, hs.2.symm⟩

theorem step_spawn (hs : step cfg hash s .spawn = some s') :
    ∃ k, s.owner = .starting k ∧ k < shardCount cfg ∧
      s' = moveOwner (moveWorker s k .testRunning) (.starting (k + 1)) := by
  simp only [step] at hs
  split at hs
  · next k ho =>
    simp only [Option.ite_none_right_eq_some, Option.some.injEq] at hs
    exact ⟨k, ho, hs.1, hs.2.symm⟩
  · cases hs

theorem step_startReturn (hs : step cfg hash s .startReturn = some s') :
    s.owner = .starting (shardCount cfg) ∧ s' = moveOwner s .started := by
  simp only [step, Option.ite_none_right_eq_some, Option.some.injEq] at hs
  exact ⟨hs.1, hs.2.symm⟩

theorem step_enter {key : String} {run : ρ} (hs : step cfg hash s (.enter c key run) = some s') :
    s.submit c = .idle ∧ s' = moveCall s c (.entered key run) := by
  simp only [step] at hs
  split at hs
  · next hc => exact ⟨hc, (Option.some.inj hs).symm⟩
  · cases hs

theorem step_load (hs : step cfg hash s (.load c) = some s') :
    ∃ key run, s.submit c = .entered key run ∧
      (s' = moveCall s c (.loaded key run) ∨ s' = reject s c) := by
  simp only [step] at hs
  split at hs
  · next key run hc =>
    refine ⟨key, run, hc, ?_⟩
    split at hs
    · exact Or.inl (Option.some.inj hs).symm
    · exact Or.inr (Option.some.inj hs).symm
  · cases hs

theorem step_write (hs : step cfg hash s (.write c) = some s') :
    ∃ key run, s.submit c = .loaded key run ∧
      ((∃ q, (s.queue (shardIndexFor cfg hash key)).write ⟨c, key, run⟩ = some q ∧
          s' = accept s (shardIndexFor cfg hash key) ⟨c, key, run⟩ q) ∨
        (s.queue (shardIndexFor cfg hash key)).write ⟨c, key, run⟩ = none ∧
          s' = reject s c) := by
  simp only [step] at hs
  split at hs
  · next key run hc =>
    refine ⟨key, run, hc, ?_⟩
    split at hs
    · next q hq => exact Or.inl ⟨q, hq, (Option.some.inj hs).symm⟩
    · next hq => exact Or.inr ⟨hq, (Option.some.inj hs).symm⟩
  · cases hs

theorem step_testRunning (hs : step cfg hash s (.testRunning i) = some s') :
    s.worker i = .testRunning ∧
      s' = moveWorker s i (if s.running then .reading else .testSize) := by
  simp only [step] at hs
  split at hs
  · next hw => exact ⟨hw, (Option.some.inj hs).symm⟩
  · cases hs

theorem step_testSize (hs : step cfg hash s (.testSize i) = some s') :
    s.worker i = .testSize ∧
      s' = moveWorker s i (if 0 < (s.queue i).size then .reading else .exited) := by
  simp only [step] at hs
  split at hs
  · next hw => exact ⟨hw, (Option.some.inj hs).symm⟩
  · cases hs

theorem step_read (hs : step cfg hash s (.read i) = some s') :
    s.worker i = .reading ∧
      ((∃ t q, (s.queue i).read = some (t, q) ∧ s' = begin s i t q) ∨
        s' = moveWorker s i .testRunning) := by
  simp only [step] at hs
  split at hs
  · next hw =>
    refine ⟨hw, ?_⟩
    split at hs
    · next t q hq => exact Or.inl ⟨t, q, hq, (Option.some.inj hs).symm⟩
    · exact Or.inr (Option.some.inj hs).symm
  · cases hs

theorem step_finish {how : TaskEnd} (hs : step cfg hash s (.finish i how) = some s') :
    ∃ t, s.worker i = .executing t ∧ s' = finish s i t how := by
  simp only [step] at hs
  split at hs
  · next t hw => exact ⟨t, hw, (Option.some.inj hs).symm⟩
  · cases hs

theorem step_stopExchange (hs : step cfg hash s .stopExchange = some s') :
    s.owner = .started ∧ s' = moveOwner { s with running := false } (.joining 0) := by
  simp only [step, Option.ite_none_right_eq_some, Option.some.injEq] at hs
  exact ⟨hs.1.1, hs.2.symm⟩

theorem step_join (hs : step cfg hash s .join = some s') :
    ∃ k, s.owner = .joining k ∧ s.worker k = .exited ∧ s' = moveOwner s (.joining (k + 1)) := by
  simp only [step] at hs
  split at hs
  · next k ho =>
    split at hs
    · next hw =>
      simp only [Option.ite_none_right_eq_some, Option.some.injEq] at hs
      exact ⟨k, ho, hw, hs.2.symm⟩
    · cases hs
  · cases hs

theorem step_stopReturn (hs : step cfg hash s .stopReturn = some s') :
    s.owner = .joining (shardCount cfg) ∧ s' = moveOwner s .stopped := by
  simp only [step, Option.ite_none_right_eq_some, Option.some.injEq] at hs
  exact ⟨hs.1, hs.2.symm⟩

end Inversion

/-! ### The lifecycle of the workers -/

namespace OwnerPc

/-- How many of `n` workers have been created. -/
def born (n : ℕ) : OwnerPc → ℕ
  | .constructed => 0
  | .starting i => i
  | _ => n

/-- How many of `n` workers have been joined. -/
def joined (n : ℕ) : OwnerPc → ℕ
  | .joining i => i
  | .stopped => n
  | _ => 0

/-- `running_` as the owner's place in its code determines it. -/
def isRunning : OwnerPc → Bool
  | .starting _ => true
  | .started => true
  | _ => false

end OwnerPc

variable {cfg : ManagerConfig} {hash : String → ℕ}

/-- **The lifecycle invariant**: threads exist once `start` has created them, a
worker leaves its loop only after `running_` was cleared, and `stop` passes a worker
only once it has left. -/
structure Lifecycle (s : State ρ (shardCapacity cfg)) : Prop where
  unborn : ∀ i, s.owner.born (shardCount cfg) ≤ i → s.worker i = .unborn
  running : s.running = s.owner.isRunning
  leaving : ∀ i, s.worker i = .testSize ∨ s.worker i = .exited → s.running = false
  joined : ∀ i, i < s.owner.joined (shardCount cfg) → s.worker i = .exited

namespace Lifecycle

variable {s s' : State ρ (shardCapacity cfg)}

theorem init : Lifecycle (Ingest.init cfg : State ρ (shardCapacity cfg)) where
  unborn _ _ := rfl
  running := rfl
  leaving i h := by simp [Ingest.init] at h
  joined i h := by simp [Ingest.init, OwnerPc.joined] at h

/-- Only the owner, the workers and `running_` matter. -/
theorem frame (h : Lifecycle s) (ho : s'.owner = s.owner) (hw : s'.worker = s.worker)
    (hr : s'.running = s.running) : Lifecycle s' where
  unborn i hi := by
    rw [hw]
    exact h.unborn i (ho ▸ hi)
  running := by
    rw [hr, ho]
    exact h.running
  leaving i hi := by
    rw [hr]
    exact h.leaving i (hw ▸ hi)
  joined i hi := by
    rw [hw]
    exact h.joined i (ho ▸ hi)

/-- A worker inside its loop moves; it may leave only when `running_` is clear. -/
theorem move (h : Lifecycle s) {i : ℕ} {pc : WorkerPc ρ} (hborn : s.worker i ≠ .unborn)
    (hin : s.worker i ≠ .exited) (hpc : pc = .testSize ∨ pc = .exited → s.running = false)
    (ho : s'.owner = s.owner) (hw : s'.worker = Function.update s.worker i pc)
    (hr : s'.running = s.running) : Lifecycle s' where
  unborn j hj := by
    have hju := h.unborn j (ho ▸ hj)
    have hji : j ≠ i := fun he => hborn (he ▸ hju)
    rw [hw, Function.update_of_ne hji, hju]
  running := by
    rw [hr, ho]
    exact h.running
  leaving j hj := by
    rw [hr]
    rcases eq_or_ne j i with rfl | hji
    · rw [hw, Function.update_self] at hj
      exact hpc hj
    · rw [hw, Function.update_of_ne hji] at hj
      exact h.leaving j hj
  joined j hj := by
    have hjx := h.joined j (ho ▸ hj)
    have hji : j ≠ i := fun he => hin (he ▸ hjx)
    rw [hw, Function.update_of_ne hji, hjx]

/-- **Every action keeps the lifecycle.** -/
theorem step (h : Lifecycle s) {a : Action ρ} (hs : Ingest.step cfg hash s a = some s') :
    Lifecycle s' := by
  cases a with
  | startExchange =>
    obtain ⟨ho, rfl⟩ := step_startExchange hs
    have hu : ∀ i, s.worker i = .unborn := fun i => h.unborn i (by simp [ho, OwnerPc.born])
    exact ⟨fun i _ => hu i, rfl, fun i hi => by simp [moveOwner, hu i] at hi,
      fun i hi => by simp [moveOwner, OwnerPc.joined] at hi⟩
  | spawn =>
    obtain ⟨k, ho, -, rfl⟩ := step_spawn hs
    refine ⟨fun j hj => ?_, by rw [moveOwner, moveWorker, h.running, ho]; rfl, fun j hj => ?_,
      fun j hj => by simp [moveOwner, OwnerPc.joined] at hj⟩
    · have hkj : k + 1 ≤ j := hj
      have hjk : j ≠ k := by omega
      have hju := h.unborn j (by rw [ho]; exact (by omega : k ≤ j))
      simp [moveOwner, moveWorker, hjk, hju]
    · rcases eq_or_ne j k with rfl | hjk
      · simp [moveOwner, moveWorker] at hj
      · exact h.leaving j (by simpa [moveOwner, moveWorker, hjk] using hj)
  | startReturn =>
    obtain ⟨ho, rfl⟩ := step_startReturn hs
    refine ⟨fun i hi => h.unborn i ?_, by rw [moveOwner, h.running, ho]; rfl, h.leaving,
      fun i hi => by simp [moveOwner, OwnerPc.joined] at hi⟩
    rw [ho]
    exact hi
  | enter c key run =>
    obtain ⟨-, rfl⟩ := step_enter hs
    exact h.frame rfl rfl rfl
  | load c =>
    obtain ⟨key, run, -, rfl | rfl⟩ := step_load hs <;> exact h.frame rfl rfl rfl
  | write c =>
    obtain ⟨key, run, -, ⟨q, -, rfl⟩ | ⟨-, rfl⟩⟩ := step_write hs <;> exact h.frame rfl rfl rfl
  | testRunning i =>
    obtain ⟨hw, rfl⟩ := step_testRunning hs
    -- a worker turns to the size of its queue only where it has found `running_` clear
    refine h.move (by simp [hw]) (by simp [hw]) (fun hpc => ?_) rfl rfl rfl
    rcases hr : s.running with _ | _
    · rfl
    · simp [hr] at hpc
  | testSize i =>
    obtain ⟨hw, rfl⟩ := step_testSize hs
    -- it has found `running_` clear before, and nothing sets it again
    exact h.move (by simp [hw]) (by simp [hw]) (fun _ => h.leaving i (Or.inl hw)) rfl rfl rfl
  | read i =>
    obtain ⟨hw, ⟨t, q, -, rfl⟩ | rfl⟩ := step_read hs <;>
      exact h.move (by simp [hw]) (by simp [hw]) (by simp) rfl rfl rfl
  | finish i how =>
    obtain ⟨t, hw, rfl⟩ := step_finish hs
    exact h.move (by simp [hw]) (by simp [hw]) (by simp) rfl rfl rfl
  | stopExchange =>
    obtain ⟨ho, rfl⟩ := step_stopExchange hs
    refine ⟨fun i hi => h.unborn i ?_, rfl, fun _ _ => rfl,
      fun i hi => by simp [moveOwner, OwnerPc.joined] at hi⟩
    rw [ho]
    exact hi
  | join =>
    obtain ⟨k, ho, hexit, rfl⟩ := step_join hs
    refine ⟨fun i hi => h.unborn i ?_, by rw [moveOwner, h.running, ho]; rfl, h.leaving,
      fun i hi => ?_⟩
    · rw [ho]
      exact hi
    · rcases Nat.lt_succ_iff_lt_or_eq.mp (show i < k + 1 from hi) with hlt | rfl
      · exact h.joined i (by rw [ho]; exact hlt)
      · exact hexit
  | stopReturn =>
    obtain ⟨ho, rfl⟩ := step_stopReturn hs
    refine ⟨fun i hi => h.unborn i ?_, by rw [moveOwner, h.running, ho]; rfl, h.leaving,
      fun i hi => h.joined i ?_⟩
    · rw [ho]
      exact hi
    · rw [ho]
      exact hi

end Lifecycle

/-! ### The histories

A shard is a pipeline: what was accepted for it is what its worker has begun
followed by what is still queued, and what was begun is what has ended followed by
the task being run. Both are statements about the histories *restricted to the
shard*, since different shards interleave freely. -/

/-- Whether a task belongs to shard `i`. -/
def onShard (cfg : ManagerConfig) (hash : String → ℕ) (i : ℕ) (t : Task ρ) : Bool :=
  shardIndexFor cfg hash t.partitionKey = i

/-- A task belongs to one shard only. -/
theorem onShard_of_ne {i j : ℕ} {t : Task ρ} (ht : onShard cfg hash i t = true) (hj : j ≠ i) :
    onShard cfg hash j t = false := by
  simp only [onShard, decide_eq_true_eq, decide_eq_false_iff_not] at ht ⊢
  omega

/-- The task a worker is running, if any. -/
def WorkerPc.current : WorkerPc ρ → List (Task ρ)
  | .executing t => [t]
  | _ => []

/-- **The invariant of the histories.** -/
structure Histories (cfg : ManagerConfig) (hash : String → ℕ)
    (s : State ρ (shardCapacity cfg)) : Prop where
  /-- A shard's accepted tasks are those begun, then those queued. -/
  queued : ∀ i, s.accepted.filter (onShard cfg hash i) =
    s.begun.filter (onShard cfg hash i) ++ (s.queue i).items
  /-- A shard's begun tasks are those ended, then the one running. -/
  running : ∀ i, s.begun.filter (onShard cfg hash i) =
    s.ended.filter (onShard cfg hash i) ++ (s.worker i).current
  /-- A call has returned `true` exactly when its task was accepted. -/
  returned : ∀ c, s.submit c = .returned true ↔ ∃ t ∈ s.accepted, t.call = c
  /-- No call has its task accepted twice. -/
  distinct : (s.accepted.map Task.call).Nodup

namespace Histories

variable {s s' : State ρ (shardCapacity cfg)}

theorem init : Histories cfg hash (Ingest.init cfg : State ρ (shardCapacity cfg)) := by
  constructor <;> simp [Ingest.init, WorkerPc.current]

theorem onShard_of_queued (h : Histories cfg hash s) {i : ℕ} {t : Task ρ}
    (ht : t ∈ (s.queue i).items) : onShard cfg hash i t = true := by
  have hmem : t ∈ s.accepted.filter (onShard cfg hash i) := by
    rw [h.queued i]
    exact List.mem_append_right _ ht
  exact (List.mem_filter.mp hmem).2

theorem onShard_of_executing (h : Histories cfg hash s) {i : ℕ} {t : Task ρ}
    (ht : s.worker i = .executing t) : onShard cfg hash i t = true := by
  have hmem : t ∈ s.begun.filter (onShard cfg hash i) := by
    rw [h.running i, ht]
    exact List.mem_append_right _ (List.mem_singleton.mpr rfl)
  exact (List.mem_filter.mp hmem).2

/-- A list that contains every task of a shard that another one does contains all of
them. -/
theorem mem_of_filter_onShard (cfg : ManagerConfig) (hash : String → ℕ)
    {l l' : List (Task ρ)} {t : Task ρ} (ht : t ∈ l)
    (h : ∀ i, ∀ u ∈ l.filter (onShard cfg hash i), u ∈ l'.filter (onShard cfg hash i)) :
    t ∈ l' :=
  List.mem_of_mem_filter (h (shardIndexFor cfg hash t.partitionKey) t
    (List.mem_filter.mpr ⟨ht, by simp [onShard]⟩))

theorem accepted_of_begun (h : Histories cfg hash s) {t : Task ρ} (ht : t ∈ s.begun) :
    t ∈ s.accepted := by
  refine mem_of_filter_onShard cfg hash ht fun i u hu => ?_
  rw [h.queued i]
  exact List.mem_append_left _ hu

theorem begun_of_ended (h : Histories cfg hash s) {t : Task ρ} (ht : t ∈ s.ended) :
    t ∈ s.begun := by
  refine mem_of_filter_onShard cfg hash ht fun i u hu => ?_
  rw [h.running i]
  exact List.mem_append_left _ hu

theorem begun_of_executing (h : Histories cfg hash s) {i : ℕ} {t : Task ρ}
    (ht : s.worker i = .executing t) : t ∈ s.begun := by
  have hmem : t ∈ s.begun.filter (onShard cfg hash i) := by
    rw [h.running i, ht]
    exact List.mem_append_right _ (List.mem_singleton.mpr rfl)
  exact List.mem_of_mem_filter hmem

theorem accepted_of_queued (h : Histories cfg hash s) {i : ℕ} {t : Task ρ}
    (ht : t ∈ (s.queue i).items) : t ∈ s.accepted := by
  have hmem : t ∈ s.accepted.filter (onShard cfg hash i) := by
    rw [h.queued i]
    exact List.mem_append_right _ ht
  exact List.mem_of_mem_filter hmem

/-- A step that touches no queue and no history, keeps every running task and
makes no call return `true` keeps the invariant. -/
theorem frame (h : Histories cfg hash s) (hq : s'.queue = s.queue)
    (ha : s'.accepted = s.accepted) (hb : s'.begun = s.begun) (he : s'.ended = s.ended)
    (hw : ∀ i, (s'.worker i).current = (s.worker i).current)
    (hc : ∀ c, s'.submit c = .returned true ↔ s.submit c = .returned true) :
    Histories cfg hash s' where
  queued i := by
    rw [ha, hb, hq]
    exact h.queued i
  running i := by
    rw [hb, he, hw]
    exact h.running i
  returned c := by
    rw [hc, ha]
    exact h.returned c
  distinct := by
    rw [ha]
    exact h.distinct

/-- Moving the owner. -/
theorem frame_owner (h : Histories cfg hash s) (pc : OwnerPc) (r : Bool) :
    Histories cfg hash (moveOwner { s with running := r } pc) :=
  h.frame rfl rfl rfl rfl (fun _ => rfl) (fun _ => Iff.rfl)

/-- Moving one worker between places that run no task. -/
theorem frame_worker (h : Histories cfg hash s) {i : ℕ} {pc : WorkerPc ρ}
    (hold : (s.worker i).current = []) (hnew : pc.current = []) :
    Histories cfg hash (moveWorker s i pc) := by
  refine h.frame rfl rfl rfl rfl (fun j => ?_) (fun c => Iff.rfl)
  rcases eq_or_ne j i with rfl | hj
  · simp [moveWorker, hold, hnew]
  · simp [moveWorker, hj]

/-- Moving one call between places that are not a return of `true`. -/
theorem frame_call (h : Histories cfg hash s) {c : ℕ} {pc : SubmitPc ρ}
    (hold : s.submit c ≠ .returned true) (hnew : pc ≠ .returned true) (m : ManagerMetrics) :
    Histories cfg hash { moveCall s c pc with metrics := m } := by
  refine h.frame rfl rfl rfl rfl (fun j => rfl) (fun d => ?_)
  rcases eq_or_ne d c with rfl | hd
  · simp [moveCall, hold, hnew]
  · simp [moveCall, hd]

/-- A queue write that succeeds appends to the history of its shard. -/
theorem accept (h : Histories cfg hash s) {c : ℕ} {key : String} {run : ρ}
    {q : Fifo (Task ρ) (shardCapacity cfg)} (hc : s.submit c = .loaded key run)
    (hq : (s.queue (shardIndexFor cfg hash key)).write ⟨c, key, run⟩ = some q) :
    Histories cfg hash (accept s (shardIndexFor cfg hash key) ⟨c, key, run⟩ q) where
  queued i := by
    rcases eq_or_ne i (shardIndexFor cfg hash key) with rfl | hi
    · simp [Ingest.accept, onShard, h.queued, Fifo.write_eq_some hq]
    · have hne : shardIndexFor cfg hash key ≠ i := hi.symm
      simp [Ingest.accept, onShard, h.queued, hi, hne]
  running i := h.running i
  returned d := by
    rcases eq_or_ne d c with rfl | hd
    · simp [Ingest.accept]
    · simp [Ingest.accept, hd, hd.symm, h.returned d]
  distinct := by
    -- the call of an accepted task has returned, and this one is about to write
    have hfresh : c ∉ s.accepted.map Task.call := by
      intro hmem
      have hret := (h.returned c).mpr (by simpa using hmem)
      rw [hc] at hret
      cases hret
    simpa [Ingest.accept, List.nodup_append, h.distinct] using
      fun t ht hcall => hfresh (List.mem_map.mpr ⟨t, ht, hcall⟩)

/-- A queue read moves the oldest queued task of the shard to the worker. -/
theorem begin (h : Histories cfg hash s) {i : ℕ} {t : Task ρ}
    {q : Fifo (Task ρ) (shardCapacity cfg)} (hw : s.worker i = .reading)
    (hq : (s.queue i).read = some (t, q)) :
    Histories cfg hash (begin s i t q) where
  queued j := by
    have hitems := Fifo.read_eq_some hq
    -- the task belongs to the shard it is queued in, so the other shards see nothing of it
    have ht : onShard cfg hash i t = true := h.onShard_of_queued (by simp [hitems])
    rcases eq_or_ne j i with rfl | hj
    · simp [Ingest.begin, h.queued, hitems, ht]
    · simp [Ingest.begin, h.queued, hj, onShard_of_ne ht hj]
  running j := by
    have hitems := Fifo.read_eq_some hq
    have ht : onShard cfg hash i t = true := h.onShard_of_queued (by simp [hitems])
    have hrun := h.running j
    rcases eq_or_ne j i with rfl | hj
    · rw [hw] at hrun
      simp only [WorkerPc.current, List.append_nil] at hrun
      simp [Ingest.begin, hrun, ht, WorkerPc.current]
    · simp [Ingest.begin, hrun, hj, onShard_of_ne ht hj]
  returned c := h.returned c
  distinct := h.distinct

/-- The end of a task moves it from the worker to the ended ones. -/
theorem finish (h : Histories cfg hash s) {i : ℕ} {t : Task ρ}
    (hw : s.worker i = .executing t) (how : TaskEnd) :
    Histories cfg hash (finish s i t how) where
  queued j := h.queued j
  running j := by
    have ht : onShard cfg hash i t = true := h.onShard_of_executing hw
    have hrun := h.running j
    rcases eq_or_ne j i with rfl | hj
    · rw [hw] at hrun
      simp [Ingest.finish, hrun, ht, WorkerPc.current]
    · simp [Ingest.finish, hrun, hj, onShard_of_ne ht hj]
  returned c := h.returned c
  distinct := h.distinct

/-- **Every action keeps the histories in order.** -/
theorem step (h : Histories cfg hash s) (hl : Lifecycle s) {a : Action ρ}
    (hs : Ingest.step cfg hash s a = some s') : Histories cfg hash s' := by
  cases a with
  | startExchange =>
    obtain ⟨-, rfl⟩ := step_startExchange hs
    exact h.frame_owner _ _
  | spawn =>
    obtain ⟨k, ho, -, rfl⟩ := step_spawn hs
    have hu : s.worker k = .unborn := hl.unborn k (by rw [ho]; exact le_rfl)
    exact (h.frame_worker (by simp [hu, WorkerPc.current]) rfl).frame_owner _ _
  | startReturn =>
    obtain ⟨-, rfl⟩ := step_startReturn hs
    exact h.frame_owner _ _
  | enter c key run =>
    obtain ⟨hc, rfl⟩ := step_enter hs
    exact h.frame_call (by simp [hc]) (by simp) s.metrics
  | load c =>
    obtain ⟨key, run, hc, rfl | rfl⟩ := step_load hs
    · exact h.frame_call (by simp [hc]) (by simp) s.metrics
    · exact h.frame_call (by simp [hc]) (by simp) _
  | write c =>
    obtain ⟨key, run, hc, ⟨q, hq, rfl⟩ | ⟨-, rfl⟩⟩ := step_write hs
    · exact h.accept hc hq
    · exact h.frame_call (by simp [hc]) (by simp) _
  | testRunning i =>
    obtain ⟨hw, rfl⟩ := step_testRunning hs
    refine h.frame_worker (by simp [hw, WorkerPc.current]) ?_
    split <;> rfl
  | testSize i =>
    obtain ⟨hw, rfl⟩ := step_testSize hs
    refine h.frame_worker (by simp [hw, WorkerPc.current]) ?_
    split <;> rfl
  | read i =>
    obtain ⟨hw, ⟨t, q, hq, rfl⟩ | rfl⟩ := step_read hs
    · exact h.begin hw hq
    · exact h.frame_worker (by simp [hw, WorkerPc.current]) rfl
  | finish i how =>
    obtain ⟨t, hw, rfl⟩ := step_finish hs
    exact h.finish hw how
  | stopExchange =>
    obtain ⟨-, rfl⟩ := step_stopExchange hs
    exact h.frame_owner _ _
  | join =>
    obtain ⟨k, -, -, rfl⟩ := step_join hs
    exact h.frame_owner _ _
  | stopReturn =>
    obtain ⟨-, rfl⟩ := step_stopReturn hs
    exact h.frame_owner _ _

end Histories

/-! ### What every run satisfies -/

variable {acts : List (Action ρ)} {s : State ρ (shardCapacity cfg)}

theorem run_invariants (hr : Runs.run (step cfg hash) (init cfg) acts = some s) :
    Lifecycle s ∧ Histories cfg hash s :=
  Runs.run_invariant (P := fun s => Lifecycle s ∧ Histories cfg hash s)
    (fun _ _ _ h hs => ⟨h.1.step hs, h.2.step h.1 hs⟩) ⟨Lifecycle.init, Histories.init⟩ hr

/-- **The tasks of one shard are begun in the order their writes succeeded.** -/
theorem begun_isPrefix (h : Histories cfg hash s) {i : ℕ} {p : Task ρ → Bool}
    (hp : ∀ t, p t = true → onShard cfg hash i t = true) :
    s.begun.filter p <+: s.accepted.filter p := by
  rw [Lists.filter_of_imp hp s.begun, Lists.filter_of_imp hp s.accepted, h.queued i,
    List.filter_append]
  exact List.prefix_append _ _

/-- **The tasks of one shard run one at a time**: at most one of them has begun and
not ended, and it is the last one begun. -/
theorem begun_eq_ended_append (h : Histories cfg hash s) {i : ℕ} {p : Task ρ → Bool}
    (hp : ∀ t, p t = true → onShard cfg hash i t = true) :
    s.begun.filter p = s.ended.filter p ++ (s.worker i).current.filter p := by
  rw [Lists.filter_of_imp hp s.begun, Lists.filter_of_imp hp s.ended, h.running i,
    List.filter_append]

/-- **No accepted task is begun twice.** -/
theorem begun_nodup (h : Histories cfg hash s) : s.begun.Nodup := by
  classical
  refine List.nodup_iff_count_le_one.mpr fun t => ?_
  have hshard : ∀ l : List (Task ρ),
      (l.filter (onShard cfg hash (shardIndexFor cfg hash t.partitionKey))).count t =
        l.count t := fun l => List.count_filter (by simp [onShard])
  have hle : s.begun.count t ≤ s.accepted.count t := by
    rw [← hshard s.begun, ← hshard s.accepted, h.queued, List.count_append]
    exact Nat.le_add_right _ _
  exact hle.trans (List.nodup_iff_count_le_one.mp h.distinct.of_map t)

end Ingest

end MonitorSystem
