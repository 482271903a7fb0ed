import MonitorSystem.Library.Fifo
import MonitorSystem.Library.Runs
import MonitorSystem.Manager.Basic
import Mathlib.Data.List.Basic
import Mathlib.Logic.Function.Iterate

/-!
# The query side of the dispatcher

`ManagerDispatcher` runs the queries of the gRPC threads on a pool of workers that
grows when the queue reaches its high watermark and shrinks when a worker has been
idle. A caller of `submitQueryTask` enlarges the pool if need be, puts its task in
the queue and waits on a future for a bounded time; a worker takes tasks from the
queue, runs them and fulfils their promises. This file is the state machine of the
two, cut at the atomic actions of the source (`manager/include/ManagerDispatcher.h`
and `manager/src/ManagerDispatcher.cpp`).

The type `R` of the response is arbitrary. A task may write its result any number of
times while it runs, and it may return, throw, or go on for ever: those are labels,
so every behaviour of a task is some run. So is every timing: an idle period may be
over or not, and a wait may time out whenever the promise is not yet fulfilled.

A call keeps a few facts the program has no variable for – whether its queue write
succeeded, whether its wait timed out, how its task ended and what the task had
produced by then, whether the caller's response was assigned – and the state keeps
the list of the calls whose task a worker has begun.
-/

namespace MonitorSystem

namespace QueryDispatch

variable {R : Type}

/-- How a task ends. -/
inductive TaskEnd where
  /-- It returns a status. -/
  | returned (status : Status)
  /-- It throws a `std::exception` with this `what()`. -/
  | threw (what : String)
  /-- It throws something else. -/
  | threwUnknown
  deriving DecidableEq, Repr

/-- The status the task's wrapper puts into the promise. -/
def TaskEnd.status : TaskEnd → Status
  | .returned status => status
  | .threw what => ⟨.internal, "manager query task failed: " ++ what⟩
  | .threwUnknown => ⟨.internal, "manager query task failed with unknown error"⟩

/-- The status of a call whose task was not accepted. -/
def queueFull : Status := ⟨.resourceExhausted, "manager query queue is full"⟩

/-- The status of a call whose wait timed out. -/
def timedOutStatus : Status := ⟨.deadlineExceeded, "manager query task timed out"⟩

/-- The status of a call with a null response. -/
def nullResponse : Status := ⟨.invalidArgument, "null response"⟩

/-- Where a `submitQueryTask` call stands. -/
inductive CallPc where
  /-- About to compare the queue size with the high watermark. -/
  | sizeTest
  /-- In `maybeScaleUpQuery`, about to make the same comparison again. -/
  | scaleTest
  /-- In `maybeScaleUpQuery`, about to load `queryWorkerCount_`. -/
  | scaleLoad
  /-- In `spawnQueryWorker`, about to load `queryWorkerCount_`. -/
  | spawnLoad
  /-- In `spawnQueryWorker`, about to `fetch_add`, having loaded `current`. -/
  | spawnAdd (current : ℤ)
  /-- In `spawnQueryWorker`, about to create the thread. -/
  | spawnEmplace (current : ℤ)
  /-- About to compare the queue size with the capacity. -/
  | capacityTest
  /-- In `enqueueQuery`, about to load `running_`. -/
  | runningTest
  /-- In `enqueueQuery`, about to write the queue. -/
  | writing
  /-- Waiting on the future. -/
  | waiting
  /-- Returned to its caller. -/
  | returned (status : Status)
  deriving DecidableEq, Repr

/-- Where a query worker stands. -/
inductive WorkerPc where
  /-- About to load `running_` in the loop condition. -/
  | testRunning
  /-- `running_` was false; about to test the size of the queue. -/
  | testSize
  /-- In the loop, about to read the queue. -/
  | reading
  /-- The queue was empty; about to load `queryWorkerCount_` and look at the clock. -/
  | idle
  /-- Has decided to shrink; about to `fetch_sub` and return. -/
  | shrinking
  /-- Running the task of call `c`. -/
  | executing (c : ℕ)
  /-- Out of the loop; about to `fetch_sub` and return. -/
  | leaving
  /-- Returned from `queryWorkerLoop`. -/
  | exited
  deriving DecidableEq, Repr

/-- One `submitQueryTask` call. -/
structure Call (R : Type) where
  pc : CallPc
  /-- The caller's `*response`; `none` is a null pointer. -/
  response : Option R
  /-- The `*result` shared with the task. -/
  result : R
  /-- The promise shared with the task. -/
  promise : Option Status
  /-- What `*response` was when the call was made. -/
  initial : Option R
  /-- The queue write succeeded. -/
  accepted : Bool
  /-- The wait on the future timed out. -/
  timedOut : Bool
  /-- `*response` was assigned. -/
  assigned : Bool
  /-- How the task ended, and what it had produced. -/
  ended : Option (TaskEnd × R)
  deriving DecidableEq, Repr

/-- The capacity of the query queue: at least one, whatever is configured. -/
def queueCapacity (cfg : ManagerConfig) : ℕ := max 1 cfg.queryQueueCapacity

/-- The state of the query side. -/
structure State (R : Type) (cap : ℕ) where
  running : Bool
  /-- `queryQueue_`: the tasks, named by the calls they come from. -/
  queue : Fifo ℕ cap
  /-- `queryWorkerCount_`. -/
  workerCount : ℤ
  /-- `queryWorkers_`, until `stop` takes it over: the thread objects, in the order
  they were created. -/
  workers : List WorkerPc
  calls : List (Call R)
  metrics : ManagerMetrics
  /-- The calls whose task a worker has begun, in the order they were. -/
  begun : List ℕ

/-- The labels: who moves, and what its environment answers. -/
inductive Action (R : Type) where
  /-- A gRPC thread calls `submitQueryTask` with this response. -/
  | call (response : Option R)
  /-- The next atomic action of call `c`. -/
  | advance (c : ℕ)
  /-- The wait of call `c` times out. -/
  | timeout (c : ℕ)
  /-- The next atomic action of worker `i`. -/
  | work (i : ℕ)
  /-- Worker `i`, idle, decides; its idle period is over or not. -/
  | idle (i : ℕ) (expired : Bool)
  /-- The task worker `i` runs writes its result. -/
  | produce (i : ℕ) (r : R)
  /-- The task worker `i` runs ends. -/
  | complete (i : ℕ) (how : TaskEnd)
  /-- `stop`: the compare-exchange of `running_`. -/
  | stopExchange
  deriving DecidableEq, Repr

section Step

variable (cfg : ManagerConfig)

variable {cfg} in
/-- Call `c` becomes `k`. -/
def setCall (s : State R (queueCapacity cfg)) (c : ℕ) (k : Call R) :
    State R (queueCapacity cfg) :=
  { s with calls := s.calls.set c k }

variable {cfg} in
/-- Worker `i` moves. -/
def setWorker (s : State R (queueCapacity cfg)) (i : ℕ) (pc : WorkerPc) :
    State R (queueCapacity cfg) :=
  { s with workers := s.workers.set i pc }

/-- The `spawnQueryWorker` of `start`, which no other thread disturbs. -/
def spawnQueryWorker (s : State R (queueCapacity cfg)) : State R (queueCapacity cfg) :=
  if cfg.queryThreadsMax ≤ s.workerCount then s
  else { s with workerCount := s.workerCount + 1, workers := s.workers ++ [.testRunning] }

/-- The number of workers `start` creates. -/
def initialQueryThreads : ℤ := max 1 (min cfg.queryThreadsMin cfg.queryThreadsMax)

/-- The pool before `start` has created a worker. -/
def unstarted : State R (queueCapacity cfg) where
  running := true
  queue := .empty
  workerCount := 0
  workers := []
  calls := []
  metrics := {}
  begun := []

/-- The dispatcher as `start` leaves it. -/
def start : State R (queueCapacity cfg) :=
  (spawnQueryWorker cfg)^[(initialQueryThreads cfg).toNat] (unstarted cfg)

variable {cfg} in
/-- Call `c` returns because its task was not accepted. -/
def reject (s : State R (queueCapacity cfg)) (c : ℕ) (k : Call R) :
    State R (queueCapacity cfg) :=
  { setCall s c { k with pc := .returned queueFull } with
    metrics := { s.metrics with queueRejected := s.metrics.queueRejected + 1 } }

variable {cfg} in
/-- The queue write of call `c` succeeds. -/
def accept (s : State R (queueCapacity cfg)) (c : ℕ) (k : Call R)
    (q : Fifo ℕ (queueCapacity cfg)) : State R (queueCapacity cfg) :=
  { setCall s c { k with pc := .waiting, accepted := true } with
    queue := q
    metrics := { s.metrics with queryRequests := s.metrics.queryRequests + 1 } }

variable {cfg} in
/-- The `fetch_add` of call `c`: from here on the worker it creates is counted. -/
def countWorker (s : State R (queueCapacity cfg)) (c : ℕ) (k : Call R) (current : ℤ) :
    State R (queueCapacity cfg) :=
  { setCall s c { k with pc := .spawnEmplace current } with workerCount := s.workerCount + 1 }

variable {cfg} in
/-- The thread call `c` creates enters `queryWorkers_`. -/
def emplaceWorker (s : State R (queueCapacity cfg)) (c : ℕ) (k : Call R) :
    State R (queueCapacity cfg) :=
  { setCall s c { k with pc := .capacityTest } with workers := s.workers ++ [.testRunning] }

variable {cfg} in
/-- Worker `i` has read the task of call `c` and runs it. -/
def begin (s : State R (queueCapacity cfg)) (i c : ℕ) (q : Fifo ℕ (queueCapacity cfg)) :
    State R (queueCapacity cfg) :=
  { setWorker s i (.executing c) with queue := q, begun := s.begun ++ [c] }

variable {cfg} in
/-- Worker `i` takes itself off the count and returns. -/
def retire (s : State R (queueCapacity cfg)) (i : ℕ) : State R (queueCapacity cfg) :=
  { setWorker s i .exited with workerCount := s.workerCount - 1 }

variable {cfg} in
/-- The wait of call `c` times out. -/
def expire (s : State R (queueCapacity cfg)) (c : ℕ) (k : Call R) :
    State R (queueCapacity cfg) :=
  { setCall s c { k with pc := .returned timedOutStatus, timedOut := true } with
    metrics := { s.metrics with taskTimeouts := s.metrics.taskTimeouts + 1 } }

variable {cfg} in
/-- The task of call `c`, which worker `i` runs, ends and fulfils the promise. -/
def fulfil (s : State R (queueCapacity cfg)) (i c : ℕ) (k : Call R) (how : TaskEnd) :
    State R (queueCapacity cfg) :=
  setWorker (setCall s c
    { k with promise := some how.status, ended := some (how, k.result) }) i .testRunning

/-- Call `c`, with its future ready, returns the promised status; the response is
assigned if the status is OK. -/
def Call.finish (k : Call R) (status : Status) : Call R :=
  if status.ok then
    { k with pc := .returned status, response := some k.result, assigned := true }
  else { k with pc := .returned status }

/-- The next atomic action of call `c`, which is now `k`. -/
def callStep (s : State R (queueCapacity cfg)) (c : ℕ) (k : Call R) :
    Option (State R (queueCapacity cfg)) :=
  match k.pc with
  | .sizeTest => some (setCall s c { k with
      pc := if cfg.queryQueueHighWatermark ≤ s.queue.size then .scaleTest else .runningTest })
  | .scaleTest => some (setCall s c { k with
      pc := if s.queue.size < cfg.queryQueueHighWatermark then .capacityTest else .scaleLoad })
  | .scaleLoad => some (setCall s c { k with
      pc := if cfg.queryThreadsMax ≤ s.workerCount then .capacityTest else .spawnLoad })
  | .spawnLoad => some (setCall s c { k with
      pc := if cfg.queryThreadsMax ≤ s.workerCount then .capacityTest
        else .spawnAdd s.workerCount })
  | .spawnAdd current => some (countWorker s c k current)
  | .spawnEmplace _ => some (emplaceWorker s c k)
  | .capacityTest =>
    if cfg.queryQueueCapacity ≤ s.queue.size then some (reject s c k)
    else some (setCall s c { k with pc := .runningTest })
  | .runningTest =>
    if s.running then some (setCall s c { k with pc := .writing }) else some (reject s c k)
  | .writing =>
    match s.queue.write c with
    | some q => some (accept s c k q)
    | none => some (reject s c k)
  | .waiting => k.promise.map fun status => setCall s c (k.finish status)
  | .returned _ => none

/-- The next atomic action of worker `i`, which now stands at `pc`. Where the action
is not the worker's own choice – the decision of an idle worker, the progress of a
task – there is a label of its own. -/
def workStep (s : State R (queueCapacity cfg)) (i : ℕ) (pc : WorkerPc) :
    Option (State R (queueCapacity cfg)) :=
  match pc with
  | .testRunning => some (setWorker s i (if s.running then .reading else .testSize))
  | .testSize => some (setWorker s i (if 0 < s.queue.size then .reading else .leaving))
  | .reading =>
    match s.queue.read with
    | some (c, q) => some (begin s i c q)
    | none => some (setWorker s i .idle)
  | .shrinking => some (retire s i)
  | .leaving => some (retire s i)
  | .idle => none
  | .executing _ => none
  | .exited => none

/-- A call that is being made: a null response is refused at once. -/
def Call.enter [Inhabited R] (response : Option R) : Call R where
  pc := if response.isSome then .sizeTest else .returned nullResponse
  response := response
  result := default
  promise := none
  initial := response
  accepted := false
  timedOut := false
  assigned := false
  ended := none

/-- **One atomic action of the query side.** -/
def step [Inhabited R] (s : State R (queueCapacity cfg)) :
    Action R → Option (State R (queueCapacity cfg))
  | .call response => some { s with calls := s.calls ++ [Call.enter response] }
  | .advance c => s.calls[c]?.bind (callStep cfg s c)
  | .timeout c => s.calls[c]?.bind fun k =>
      if k.pc = .waiting ∧ k.promise = none then some (expire s c k) else none
  | .work i => s.workers[i]?.bind (workStep cfg s i)
  | .idle i expired => s.workers[i]?.bind fun pc =>
      if pc = .idle then
        some (setWorker s i
          (if cfg.queryThreadsMin < s.workerCount ∧ expired then .shrinking else .testRunning))
      else none
  | .produce i r => s.workers[i]?.bind fun
      | .executing c => s.calls[c]?.map fun k => setCall s c { k with result := r }
      | _ => none
  | .complete i how => s.workers[i]?.bind fun
      | .executing c => s.calls[c]?.map fun k => fulfil s i c k how
      | _ => none
  | .stopExchange => if s.running then some { s with running := false } else none

end Step

/-! ### The pool after `start` -/

variable {cfg : ManagerConfig}

/-- As long as there is room, each `spawnQueryWorker` creates one worker. -/
theorem spawnQueryWorker_iterate {n : ℕ} (hn : (n : ℤ) ≤ cfg.queryThreadsMax) :
    (spawnQueryWorker cfg)^[n] (unstarted cfg : State R (queueCapacity cfg)) =
      { unstarted cfg with workerCount := n, workers := List.replicate n .testRunning } := by
  induction n with
  | zero => rfl
  | succ n ih =>
    rw [Function.iterate_succ_apply', ih (by omega), spawnQueryWorker, if_neg (by simp; omega)]
    simp [List.replicate_succ']

/-- Without room, `spawnQueryWorker` creates no worker. -/
theorem spawnQueryWorker_iterate_of_full (n : ℕ) (hmax : cfg.queryThreadsMax ≤ 0) :
    (spawnQueryWorker cfg)^[n] (unstarted cfg : State R (queueCapacity cfg)) = unstarted cfg := by
  induction n with
  | zero => rfl
  | succ n ih =>
    rw [Function.iterate_succ_apply', ih, spawnQueryWorker, if_pos (by exact hmax)]

/-- The number of workers there are when `start` returns. -/
def startedWorkers (cfg : ManagerConfig) : ℕ :=
  if cfg.queryThreadsMax ≤ 0 then 0 else (initialQueryThreads cfg).toNat

/-- **What `start` leaves**: so many workers, all counted. -/
theorem start_eq (cfg : ManagerConfig) : (start cfg : State R (queueCapacity cfg)) =
    { unstarted cfg with
      workerCount := startedWorkers cfg
      workers := List.replicate (startedWorkers cfg) .testRunning } := by
  by_cases hmax : cfg.queryThreadsMax ≤ 0
  · rw [startedWorkers, if_pos hmax]
    exact spawnQueryWorker_iterate_of_full _ hmax
  · rw [startedWorkers, if_neg hmax]
    refine spawnQueryWorker_iterate ?_
    unfold initialQueryThreads
    omega

/-- With `1 ≤ query_threads_min ≤ query_threads_max`, `start` creates the minimum. -/
theorem startedWorkers_eq (hmin : 1 ≤ cfg.queryThreadsMin)
    (hmax : cfg.queryThreadsMin ≤ cfg.queryThreadsMax) :
    (startedWorkers cfg : ℤ) = cfg.queryThreadsMin := by
  unfold startedWorkers initialQueryThreads
  rw [if_neg (by omega)]
  omega

/-! ### What each action requires and does -/

/-- How far a call is from its return: every action of its own brings it closer. -/
def CallPc.rank : CallPc → ℕ
  | .sizeTest => 10
  | .scaleTest => 9
  | .scaleLoad => 8
  | .spawnLoad => 7
  | .spawnAdd _ => 6
  | .spawnEmplace _ => 5
  | .capacityTest => 4
  | .runningTest => 3
  | .writing => 2
  | .waiting => 1
  | .returned _ => 0

/-- A call that has counted its worker and not created it yet. -/
def CallPc.emplacing : CallPc → Bool
  | .spawnEmplace _ => true
  | _ => false

section Rank

variable {pc : CallPc}

theorem CallPc.rank_le (pc : CallPc) : pc.rank ≤ 10 := by
  cases pc <;> simp [rank]

theorem CallPc.rank_eq_zero_iff : pc.rank = 0 ↔ ∃ status, pc = .returned status := by
  cases pc <;> simp [rank]

theorem CallPc.rank_eq_one_iff : pc.rank = 1 ↔ pc = .waiting := by
  cases pc <;> simp [rank]

theorem CallPc.rank_of_emplacing (h : pc.emplacing = true) : pc.rank = 5 := by
  cases pc with
  | spawnEmplace current => rfl
  | _ => cases h

end Rank

/-- A move of a call that touches nothing but its own place, before its queue
write. -/
structure CallPc.Walks (old new : CallPc) : Prop where
  closer : new.rank < old.rank
  submitting : 2 ≤ new.rank
  not_emplacing : old.emplacing = false ∧ new.emplacing = false

section Inversion

variable {cfg : ManagerConfig} {s s' : State R (queueCapacity cfg)} {c i : ℕ}

/-- **What the next action of a call can do.** -/
theorem callStep_cases {k : Call R} (h : callStep cfg s c k = some s') :
    (∃ pc, k.pc.Walks pc ∧ s' = setCall s c { k with pc := pc }) ∨
    (∃ current, k.pc = .spawnAdd current ∧ s' = countWorker s c k current) ∨
    (k.pc.emplacing = true ∧ s' = emplaceWorker s c k) ∨
    (2 ≤ k.pc.rank ∧ k.pc.emplacing = false ∧ s' = reject s c k) ∨
    (∃ q, k.pc = .writing ∧ s.queue.write c = some q ∧ s' = accept s c k q) ∨
    (∃ status, k.pc = .waiting ∧ k.promise = some status ∧
      s' = setCall s c (k.finish status)) := by
  unfold callStep at h
  cases hpc : k.pc with
  | sizeTest =>
    simp only [hpc, Option.some.injEq] at h
    refine .inl ⟨_, ?_, h.symm⟩
    split <;> exact ⟨by decide, by decide, rfl, rfl⟩
  | scaleTest =>
    simp only [hpc, Option.some.injEq] at h
    refine .inl ⟨_, ?_, h.symm⟩
    split <;> exact ⟨by decide, by decide, rfl, rfl⟩
  | scaleLoad =>
    simp only [hpc, Option.some.injEq] at h
    refine .inl ⟨_, ?_, h.symm⟩
    split <;> exact ⟨by decide, by decide, rfl, rfl⟩
  | spawnLoad =>
    simp only [hpc, Option.some.injEq] at h
    refine .inl ⟨_, ?_, h.symm⟩
    split <;> exact ⟨by simp [CallPc.rank], by simp [CallPc.rank], rfl, rfl⟩
  | spawnAdd current =>
    simp only [hpc, Option.some.injEq] at h
    exact .inr (.inl ⟨current, rfl, h.symm⟩)
  | spawnEmplace current =>
    simp only [hpc, Option.some.injEq] at h
    exact .inr (.inr (.inl ⟨rfl, h.symm⟩))
  | capacityTest =>
    simp only [hpc] at h
    split at h
    · exact .inr (.inr (.inr (.inl ⟨by decide, rfl, (Option.some.inj h).symm⟩)))
    · exact .inl ⟨_, ⟨by decide, by decide, rfl, rfl⟩, (Option.some.inj h).symm⟩
  | runningTest =>
    simp only [hpc] at h
    split at h
    · exact .inl ⟨_, ⟨by decide, by decide, rfl, rfl⟩, (Option.some.inj h).symm⟩
    · exact .inr (.inr (.inr (.inl ⟨by decide, rfl, (Option.some.inj h).symm⟩)))
  | writing =>
    simp only [hpc] at h
    split at h
    · next q hq =>
      exact .inr (.inr (.inr (.inr (.inl ⟨q, rfl, hq, (Option.some.inj h).symm⟩))))
    · exact .inr (.inr (.inr (.inl ⟨by decide, rfl, (Option.some.inj h).symm⟩)))
  | waiting =>
    simp only [hpc, Option.map_eq_some_iff] at h
    obtain ⟨status, hp, rfl⟩ := h
    exact .inr (.inr (.inr (.inr (.inr ⟨status, rfl, hp, rfl⟩))))
  | returned status => simp [hpc] at h

/-- **What the next action of a worker can do.** -/
theorem workStep_cases {pc : WorkerPc} (h : workStep cfg s i pc = some s') :
    (pc = .testRunning ∧ s' = setWorker s i (if s.running then .reading else .testSize)) ∨
    (pc = .testSize ∧ s' = setWorker s i (if 0 < s.queue.size then .reading else .leaving)) ∨
    (pc = .reading ∧ s' = setWorker s i .idle) ∨
    (∃ c q, pc = .reading ∧ s.queue.read = some (c, q) ∧ s' = begin s i c q) ∨
    ((pc = .shrinking ∨ pc = .leaving) ∧ s' = retire s i) := by
  cases pc with
  | testRunning => exact .inl ⟨rfl, (Option.some.inj h).symm⟩
  | testSize => exact .inr (.inl ⟨rfl, (Option.some.inj h).symm⟩)
  | reading =>
    simp only [workStep] at h
    split at h
    · next c q hq =>
      exact .inr (.inr (.inr (.inl ⟨c, q, rfl, hq, (Option.some.inj h).symm⟩)))
    · exact .inr (.inr (.inl ⟨rfl, (Option.some.inj h).symm⟩))
  | idle => simp [workStep] at h
  | shrinking => exact .inr (.inr (.inr (.inr ⟨.inl rfl, (Option.some.inj h).symm⟩)))
  | executing c => simp [workStep] at h
  | leaving => exact .inr (.inr (.inr (.inr ⟨.inr rfl, (Option.some.inj h).symm⟩)))
  | exited => simp [workStep] at h

variable [Inhabited R]

theorem step_call {response : Option R} (hs : step cfg s (.call response) = some s') :
    s' = { s with calls := s.calls ++ [Call.enter response] } :=
  (Option.some.inj hs).symm

theorem step_advance (hs : step cfg s (.advance c) = some s') :
    ∃ k, s.calls[c]? = some k ∧ callStep cfg s c k = some s' :=
  Option.bind_eq_some_iff.mp hs

theorem step_timeout (hs : step cfg s (.timeout c) = some s') :
    ∃ k, s.calls[c]? = some k ∧ k.pc = .waiting ∧ k.promise = none ∧ s' = expire s c k := by
  obtain ⟨k, hk, h⟩ := Option.bind_eq_some_iff.mp hs
  simp only [Option.ite_none_right_eq_some, Option.some.injEq] at h
  exact ⟨k, hk, h.1.1, h.1.2, h.2.symm⟩

theorem step_work (hs : step cfg s (.work i) = some s') :
    ∃ pc, s.workers[i]? = some pc ∧ workStep cfg s i pc = some s' :=
  Option.bind_eq_some_iff.mp hs

theorem step_idle {expired : Bool} (hs : step cfg s (.idle i expired) = some s') :
    s.workers[i]? = some .idle ∧
      s' = setWorker s i
        (if cfg.queryThreadsMin < s.workerCount ∧ expired then .shrinking else .testRunning) := by
  obtain ⟨pc, hi, h⟩ := Option.bind_eq_some_iff.mp hs
  simp only [Option.ite_none_right_eq_some, Option.some.injEq] at h
  obtain ⟨rfl, h⟩ := h
  exact ⟨hi, h.symm⟩

theorem step_produce {r : R} (hs : step cfg s (.produce i r) = some s') :
    ∃ c k, s.workers[i]? = some (.executing c) ∧ s.calls[c]? = some k ∧
      s' = setCall s c { k with result := r } := by
  obtain ⟨pc, hi, h⟩ := Option.bind_eq_some_iff.mp hs
  cases pc with
  | executing c =>
    obtain ⟨k, hk, rfl⟩ := Option.map_eq_some_iff.mp h
    exact ⟨c, k, hi, hk, rfl⟩
  | _ => cases h

theorem step_complete {how : TaskEnd} (hs : step cfg s (.complete i how) = some s') :
    ∃ c k, s.workers[i]? = some (.executing c) ∧ s.calls[c]? = some k ∧
      s' = fulfil s i c k how := by
  obtain ⟨pc, hi, h⟩ := Option.bind_eq_some_iff.mp hs
  cases pc with
  | executing c =>
    obtain ⟨k, hk, rfl⟩ := Option.map_eq_some_iff.mp h
    exact ⟨c, k, hi, hk, rfl⟩
  | _ => cases h

theorem step_stopExchange (hs : step cfg s .stopExchange = some s') :
    s' = { s with running := false } := by
  simp only [step, Option.ite_none_right_eq_some, Option.some.injEq] at hs
  exact hs.2.symm

end Inversion

end QueryDispatch

end MonitorSystem
