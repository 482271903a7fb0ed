import MonitorSystem.Library.Lists
import MonitorSystem.Manager.QueryDispatch

/-!
# How many query workers there are

The pool of query workers is kept by one counter, `queryWorkerCount_`, and one
vector, `queryWorkers_`. The counter always equals the number of live workers, a
worker being counted from the `fetch_add` that announces it
(`QueryDispatch.Counted`). Whether it stays between `query_threads_min` and
`query_threads_max` is another matter: an idle worker loads the counter, finds that
there is one worker too many and then takes itself off, and a submitter loads it,
finds that there is room and then adds one, each in two separate actions.
`QueryDispatch.throughout_served_iff` says that nothing else goes wrong: the bounds
hold throughout a run exactly when what each thread found is still so when it acts on
it.

The vector only grows. A worker that has shrunk leaves its thread object behind, so
the vector holds one entry for each worker ever created
(`QueryDispatch.handles_le_iff_created`).
-/

namespace MonitorSystem

namespace QueryDispatch

variable {R : Type} {cfg : ManagerConfig}

/-! ### The counter counts the live workers -/

/-- A worker that has not returned from `queryWorkerLoop`. -/
def WorkerPc.alive : WorkerPc → Bool
  | .exited => false
  | _ => true

/-- The number of live workers, a worker counting from the `fetch_add` of the call
that creates it. -/
def liveWorkers (s : State R (queueCapacity cfg)) : ℕ :=
  s.workers.countP WorkerPc.alive + s.calls.countP fun k => k.pc.emplacing

/-- `queryWorkerCount_` is the number of live workers. -/
def Counted (s : State R (queueCapacity cfg)) : Prop := s.workerCount = liveWorkers s

variable {s s' : State R (queueCapacity cfg)} {c i : ℕ}

/-- Replacing a call changes the number by what the two count. -/
theorem liveWorkers_setCall_add {k : Call R} (k' : Call R) (hk : s.calls[c]? = some k) :
    liveWorkers (setCall s c k') + (if k.pc.emplacing then 1 else 0) =
      liveWorkers s + if k'.pc.emplacing then 1 else 0 := by
  have := Lists.countP_set_add (p := fun k => k.pc.emplacing) k' hk
  simp only [liveWorkers, setCall]
  omega

theorem liveWorkers_setCall {k k' : Call R} (hk : s.calls[c]? = some k)
    (hpc : k.pc.emplacing = k'.pc.emplacing) : liveWorkers (setCall s c k') = liveWorkers s := by
  have := liveWorkers_setCall_add k' hk
  rw [hpc] at this
  omega

/-- Moving a worker changes the number by what its two places count. -/
theorem liveWorkers_setWorker_add {pc : WorkerPc} (pc' : WorkerPc)
    (hi : s.workers[i]? = some pc) :
    liveWorkers (setWorker s i pc') + (if pc.alive then 1 else 0) =
      liveWorkers s + if pc'.alive then 1 else 0 := by
  have := Lists.countP_set_add (p := WorkerPc.alive) pc' hi
  simp only [liveWorkers, setWorker]
  omega

theorem liveWorkers_setWorker {pc pc' : WorkerPc} (hi : s.workers[i]? = some pc)
    (hpc : pc.alive = pc'.alive) : liveWorkers (setWorker s i pc') = liveWorkers s := by
  have := liveWorkers_setWorker_add pc' hi
  rw [hpc] at this
  omega

/-- A thread that is created is live. -/
theorem liveWorkers_emplace (s : State R (queueCapacity cfg)) :
    liveWorkers { s with workers := s.workers ++ [.testRunning] } = liveWorkers s + 1 := by
  simp only [liveWorkers, List.countP_append, List.countP_singleton, WorkerPc.alive, if_true]
  omega

theorem Counted.start : Counted (start cfg : State R (queueCapacity cfg)) := by
  rw [Counted, start_eq]
  simp [liveWorkers, unstarted, List.countP_replicate, WorkerPc.alive]

/-- A step that changes neither the counter nor the number of live workers. -/
theorem Counted.of_eq (h : Counted s) (hc : s'.workerCount = s.workerCount)
    (hl : liveWorkers s' = liveWorkers s) : Counted s' := by
  rw [Counted, hc, hl]
  exact h

/-- An action of a call keeps the count: the worker it creates is live from the
`fetch_add` on. -/
theorem Counted.callStep (h : Counted s) {k : Call R} (hk : s.calls[c]? = some k)
    (hs : callStep cfg s c k = some s') : Counted s' := by
  obtain ⟨pc, hw, rfl⟩ | ⟨cur, hpc, rfl⟩ | ⟨hpc, rfl⟩ | ⟨-, hpc, rfl⟩ | ⟨q, hpc, -, rfl⟩ |
    ⟨status, hpc, -, rfl⟩ := callStep_cases hs
  · refine h.of_eq rfl (liveWorkers_setCall hk ?_)
    exact hw.not_emplacing.1.trans hw.not_emplacing.2.symm
  · -- the worker counts as live from here on, and so does the counter
    have hlive := liveWorkers_setCall_add { k with pc := .spawnEmplace cur } hk
    rw [if_neg (by simp [hpc, CallPc.emplacing]), if_pos (by simp [CallPc.emplacing])] at hlive
    have hcount : (liveWorkers (countWorker s c k cur) : ℤ) = liveWorkers s + 1 := by
      exact_mod_cast hlive
    exact (congrArg (· + 1) h).trans hcount.symm
  · -- the worker passes from the call to the vector
    have hlive := liveWorkers_setCall_add { k with pc := .capacityTest } hk
    rw [if_pos hpc, if_neg (by simp [CallPc.emplacing])] at hlive
    exact h.of_eq rfl ((liveWorkers_emplace _).trans hlive)
  · exact h.of_eq rfl (liveWorkers_setCall hk hpc)
  · exact h.of_eq rfl (liveWorkers_setCall hk (by rw [hpc]; rfl))
  · refine h.of_eq rfl (liveWorkers_setCall hk ?_)
    rw [hpc, Call.finish]
    split <;> rfl

/-- An action of a worker keeps the count: it is live until its `fetch_sub`. -/
theorem Counted.workStep (h : Counted s) {pc : WorkerPc} (hi : s.workers[i]? = some pc)
    (hs : workStep cfg s i pc = some s') : Counted s' := by
  obtain ⟨rfl, rfl⟩ | ⟨rfl, rfl⟩ | ⟨rfl, rfl⟩ | ⟨c, q, rfl, -, rfl⟩ | ⟨hpc, rfl⟩ :=
    workStep_cases hs
  · refine h.of_eq rfl (liveWorkers_setWorker hi ?_)
    split <;> rfl
  · refine h.of_eq rfl (liveWorkers_setWorker hi ?_)
    split <;> rfl
  · exact h.of_eq rfl (liveWorkers_setWorker hi rfl)
  · exact h.of_eq rfl (liveWorkers_setWorker hi rfl)
  · have hlive := liveWorkers_setWorker_add .exited hi
    rw [if_pos (by rcases hpc with rfl | rfl <;> rfl), if_neg (by simp [WorkerPc.alive])] at hlive
    have hcount : (liveWorkers (retire s i) : ℤ) + 1 = liveWorkers s := by
      exact_mod_cast hlive
    refine (congrArg (· - 1) h).trans ?_
    omega

/-- **Every action keeps the counter equal to the number of live workers.** -/
theorem Counted.step [Inhabited R] (h : Counted s) {a : Action R}
    (hs : step cfg s a = some s') : Counted s' := by
  cases a with
  | call response =>
    obtain rfl := step_call hs
    refine h.of_eq rfl ?_
    have henter : (Call.enter response).pc.emplacing = false := by
      unfold Call.enter
      cases response <;> rfl
    simp [liveWorkers, henter]
  | advance c =>
    obtain ⟨k, hk, hs⟩ := step_advance hs
    exact h.callStep hk hs
  | timeout c =>
    obtain ⟨k, hk, hpc, -, rfl⟩ := step_timeout hs
    exact h.of_eq rfl (liveWorkers_setCall hk (by rw [hpc]; rfl))
  | work i =>
    obtain ⟨pc, hi, hs⟩ := step_work hs
    exact h.workStep hi hs
  | idle i expired =>
    obtain ⟨hi, rfl⟩ := step_idle hs
    refine h.of_eq rfl (liveWorkers_setWorker hi ?_)
    split <;> rfl
  | produce i r =>
    obtain ⟨c, k, -, hk, rfl⟩ := step_produce hs
    exact h.of_eq rfl (liveWorkers_setCall hk rfl)
  | complete i how =>
    obtain ⟨c, k, hi, hk, rfl⟩ := step_complete hs
    refine h.of_eq rfl ?_
    have hset : liveWorkers (setCall s c { k with
        promise := some how.status, ended := some (how, k.result) }) = liveWorkers s :=
      liveWorkers_setCall hk rfl
    rw [← hset]
    exact liveWorkers_setWorker (s := setCall s c _) hi rfl
  | stopExchange =>
    obtain rfl := step_stopExchange hs
    exact h

/-! ### The bounds -/

/-- A worker that has not seen `running_` cleared. -/
def WorkerPc.serving : WorkerPc → Bool
  | .testSize => false
  | .leaving => false
  | _ => true

/-- Before `stop`: the flag is set, and no worker has seen anything else. -/
structure Serving (s : State R (queueCapacity cfg)) : Prop where
  running : s.running = true
  workers : ∀ pc ∈ s.workers, pc.serving = true

theorem Serving.start : Serving (start cfg : State R (queueCapacity cfg)) := by
  rw [start_eq]
  refine ⟨rfl, fun pc hpc => ?_⟩
  obtain rfl : pc = .testRunning := List.eq_of_mem_replicate hpc
  rfl

/-- One worker moves, to a place it may have before `stop`. -/
theorem Serving.move (h : Serving s) (pc : WorkerPc) (hpc : pc.serving = true)
    (hr : s'.running = s.running) (hw : s'.workers = s.workers.set i pc) : Serving s' := by
  refine ⟨hr.trans h.running, fun pc' hpc' => ?_⟩
  rw [hw] at hpc'
  rcases List.mem_or_eq_of_mem_set hpc' with hmem | rfl
  · exact h.workers pc' hmem
  · exact hpc

/-- **Until `stop` clears the flag, every worker goes on serving.** -/
theorem Serving.step [Inhabited R] (h : Serving s) {a : Action R} (ha : a ≠ .stopExchange)
    (hs : step cfg s a = some s') : Serving s' := by
  cases a with
  | call response =>
    obtain rfl := step_call hs
    exact ⟨h.running, h.workers⟩
  | advance c =>
    obtain ⟨k, -, hs⟩ := step_advance hs
    obtain ⟨pc, -, rfl⟩ | ⟨cur, -, rfl⟩ | ⟨-, rfl⟩ | ⟨-, -, rfl⟩ | ⟨q, -, -, rfl⟩ |
      ⟨status, -, -, rfl⟩ := callStep_cases hs
    -- only a new thread changes the vector, and it begins with its test of `running_`
    case inr.inr.inl =>
      refine ⟨h.running, fun pc hpc => ?_⟩
      rcases List.mem_append.mp hpc with hmem | hnew
      · exact h.workers pc hmem
      · obtain rfl := List.mem_singleton.mp hnew
        rfl
    all_goals exact ⟨h.running, h.workers⟩
  | timeout c =>
    obtain ⟨k, -, -, -, rfl⟩ := step_timeout hs
    exact ⟨h.running, h.workers⟩
  | work i =>
    obtain ⟨pc, hi, hs⟩ := step_work hs
    have hpc := h.workers pc (List.mem_of_getElem? hi)
    obtain ⟨rfl, rfl⟩ | ⟨rfl, rfl⟩ | ⟨rfl, rfl⟩ | ⟨c, q, rfl, -, rfl⟩ | ⟨-, rfl⟩ :=
      workStep_cases hs
    · rw [h.running]
      exact h.move _ rfl rfl rfl
    · cases hpc
    · exact h.move _ rfl rfl rfl
    · exact h.move (.executing c) rfl rfl rfl
    · exact h.move .exited rfl rfl rfl
  | idle i expired =>
    obtain ⟨-, rfl⟩ := step_idle hs
    refine h.move _ ?_ rfl rfl
    split <;> rfl
  | produce i r =>
    obtain ⟨c, k, -, -, rfl⟩ := step_produce hs
    exact ⟨h.running, h.workers⟩
  | complete i how =>
    obtain ⟨c, k, -, -, rfl⟩ := step_complete hs
    exact h.move .testRunning rfl rfl rfl
  | stopExchange => exact absurd rfl ha

/-- What the pool is meant to satisfy: the counter is within its bounds and counts
the live workers, of which there is at least one. -/
structure Served (s : State R (queueCapacity cfg)) : Prop where
  min_le : cfg.queryThreadsMin ≤ s.workerCount
  le_max : s.workerCount ≤ cfg.queryThreadsMax
  counted : s.workerCount = liveWorkers s
  live : 1 ≤ liveWorkers s

/-- What a thread found when it loaded the counter is still so when it acts on it:
there is room for the worker a submitter adds, and one worker too many when an idle
worker takes itself off. -/
def ScalesInBounds (s : State R (queueCapacity cfg)) : Action R → Prop
  | .advance c => ∀ k current, s.calls[c]? = some k → k.pc = .spawnAdd current →
      s.workerCount < cfg.queryThreadsMax
  | .work i => s.workers[i]? = some .shrinking → cfg.queryThreadsMin < s.workerCount
  | _ => True

/-- The invariant of the runs in which every scaling is in bounds. -/
structure Pool (s : State R (queueCapacity cfg)) : Prop where
  serving : Serving s
  counted : Counted s
  min_le : cfg.queryThreadsMin ≤ s.workerCount
  le_max : s.workerCount ≤ cfg.queryThreadsMax

theorem Pool.served (h : Pool s) (hmin : 1 ≤ cfg.queryThreadsMin) : Served s := by
  refine ⟨h.min_le, h.le_max, h.counted, ?_⟩
  have hc : s.workerCount = liveWorkers s := h.counted
  have := h.min_le
  omega

theorem Pool.start (hmin : 1 ≤ cfg.queryThreadsMin)
    (hmax : cfg.queryThreadsMin ≤ cfg.queryThreadsMax) :
    Pool (start cfg : State R (queueCapacity cfg)) := by
  have hcount : (QueryDispatch.start cfg : State R (queueCapacity cfg)).workerCount =
      cfg.queryThreadsMin := by
    rw [start_eq]
    exact startedWorkers_eq hmin hmax
  exact ⟨.start, .start, by omega, by omega⟩

/-- The counter changes only where a submitter adds a worker and where a worker
returns; before `stop` a worker returns only to shrink. -/
theorem workerCount_cases [Inhabited R] (h : Serving s) {a : Action R} (ha : a ≠ .stopExchange)
    (hs : step cfg s a = some s') :
    s'.workerCount = s.workerCount ∨
    (∃ c k current, a = .advance c ∧ s.calls[c]? = some k ∧ k.pc = .spawnAdd current ∧
      s'.workerCount = s.workerCount + 1) ∨
    (∃ i, a = .work i ∧ s.workers[i]? = some .shrinking ∧
      s'.workerCount = s.workerCount - 1) := by
  cases a with
  | call response =>
    obtain rfl := step_call hs
    exact .inl rfl
  | advance c =>
    obtain ⟨k, hk, hs⟩ := step_advance hs
    obtain ⟨pc, -, rfl⟩ | ⟨cur, hpc, rfl⟩ | ⟨-, rfl⟩ | ⟨-, -, rfl⟩ | ⟨q, -, -, rfl⟩ |
      ⟨status, -, -, rfl⟩ := callStep_cases hs
    case inr.inl => exact .inr (.inl ⟨c, k, cur, rfl, hk, hpc, rfl⟩)
    all_goals exact .inl rfl
  | timeout c =>
    obtain ⟨k, -, -, -, rfl⟩ := step_timeout hs
    exact .inl rfl
  | work i =>
    obtain ⟨pc, hi, hs⟩ := step_work hs
    have hpc := h.workers pc (List.mem_of_getElem? hi)
    obtain ⟨-, rfl⟩ | ⟨-, rfl⟩ | ⟨-, rfl⟩ | ⟨c, q, -, -, rfl⟩ | ⟨rfl | rfl, rfl⟩ :=
      workStep_cases hs
    case inr.inr.inr.inr.inl => exact .inr (.inr ⟨i, rfl, hi, rfl⟩)
    -- a worker that leaves for good has seen `running_` clear, which it is not
    case inr.inr.inr.inr.inr => cases hpc
    all_goals exact .inl rfl
  | idle i expired =>
    obtain ⟨-, rfl⟩ := step_idle hs
    exact .inl rfl
  | produce i r =>
    obtain ⟨c, k, -, -, rfl⟩ := step_produce hs
    exact .inl rfl
  | complete i how =>
    obtain ⟨c, k, -, -, rfl⟩ := step_complete hs
    exact .inl rfl
  | stopExchange => exact absurd rfl ha

theorem Pool.step [Inhabited R] (h : Pool s) {a : Action R} (ha : a ≠ .stopExchange)
    (hG : ScalesInBounds s a) (hs : step cfg s a = some s') : Pool s' := by
  have hmin := h.min_le
  have hmax := h.le_max
  obtain hc | ⟨c, k, cur, rfl, hk, hpc, hc⟩ | ⟨i, rfl, hi, hc⟩ := workerCount_cases h.serving ha hs
  · exact ⟨h.serving.step ha hs, h.counted.step hs, by omega, by omega⟩
  · have hroom := hG k cur hk hpc
    exact ⟨h.serving.step ha hs, h.counted.step hs, by omega, by omega⟩
  · have hmany := hG hi
    exact ⟨h.serving.step ha hs, h.counted.step hs, by omega, by omega⟩

/-- A scaling out of bounds takes the counter out of its bounds. -/
theorem not_served_of_not_scalesInBounds [Inhabited R] {a : Action R}
    (hG : ¬ScalesInBounds s a) : ∃ t, step cfg s a = some t ∧ ¬Served t := by
  cases a with
  | advance c =>
    simp only [ScalesInBounds, not_forall] at hG
    obtain ⟨k, cur, hk, hpc, hfull⟩ := hG
    refine ⟨countWorker s c k cur, ?_, fun hserved => ?_⟩
    · simp [step, hk, callStep, hpc]
    · have hle : s.workerCount + 1 ≤ cfg.queryThreadsMax := hserved.le_max
      omega
  | work i =>
    simp only [ScalesInBounds, not_forall] at hG
    obtain ⟨hi, hfew⟩ := hG
    refine ⟨retire s i, ?_, fun hserved => ?_⟩
    · simp [step, hi, workStep]
    · have hle : cfg.queryThreadsMin ≤ s.workerCount - 1 := hserved.min_le
      omega
  | _ => exact absurd trivial hG

/-- **The bounds on the pool hold exactly when every scaling is in bounds**, in every run
between `start` and `stop` of a pool with `1 ≤ query_threads_min ≤ query_threads_max`. -/
theorem throughout_served_iff [Inhabited R] (hmin : 1 ≤ cfg.queryThreadsMin)
    (hmax : cfg.queryThreadsMin ≤ cfg.queryThreadsMax) {acts : List (Action R)}
    (hacts : ∀ a ∈ acts, a ≠ .stopExchange) :
    Runs.Throughout (step cfg) Served (start cfg) acts ↔
      Runs.Along (step cfg) ScalesInBounds (start cfg) acts :=
  Runs.throughout_iff_along (I := Pool) (L := (· ≠ .stopExchange)) (fun _ h => h.served hmin)
    (fun _ _ _ ha h hG hs => h.step ha hG hs)
    (fun _ _ _ _ hG => not_served_of_not_scalesInBounds hG) hacts (.start hmin hmax)

/-! ### The thread objects -/

/-- The step that puts a new thread object into `queryWorkers_`. -/
def emplaces (s : State R (queueCapacity cfg)) : Action R → Bool
  | .advance c => s.calls[c]?.any fun k => k.pc.emplacing
  | _ => false

/-- **The vector of thread objects only grows**, by one with each worker created. -/
theorem workers_length_step [Inhabited R] {a : Action R} (hs : step cfg s a = some s') :
    s'.workers.length = s.workers.length + if emplaces s a then 1 else 0 := by
  cases a with
  | call response =>
    obtain rfl := step_call hs
    rfl
  | advance c =>
    obtain ⟨k, hk, hs⟩ := step_advance hs
    simp only [emplaces, hk, Option.any_some]
    obtain ⟨pc, hw, rfl⟩ | ⟨cur, hpc, rfl⟩ | ⟨hpc, rfl⟩ | ⟨-, hpc, rfl⟩ | ⟨q, hpc, -, rfl⟩ |
      ⟨status, hpc, -, rfl⟩ := callStep_cases hs
    · simp [setCall, hw.not_emplacing.1]
    · simp [countWorker, setCall, hpc, CallPc.emplacing]
    · simp [emplaceWorker, hpc]
    · simp [reject, setCall, hpc]
    · simp [accept, setCall, hpc, CallPc.emplacing]
    · simp [setCall, hpc, CallPc.emplacing]
  | timeout c =>
    obtain ⟨k, -, -, -, rfl⟩ := step_timeout hs
    rfl
  | work i =>
    obtain ⟨pc, -, hs⟩ := step_work hs
    obtain ⟨-, rfl⟩ | ⟨-, rfl⟩ | ⟨-, rfl⟩ | ⟨c, q, -, -, rfl⟩ | ⟨-, rfl⟩ := workStep_cases hs <;>
      simp [setWorker, begin, retire, emplaces]
  | idle i expired =>
    obtain ⟨-, rfl⟩ := step_idle hs
    simp [setWorker, emplaces]
  | produce i r =>
    obtain ⟨c, k, -, -, rfl⟩ := step_produce hs
    rfl
  | complete i how =>
    obtain ⟨c, k, -, -, rfl⟩ := step_complete hs
    simp [fulfil, setWorker, setCall, emplaces]
  | stopExchange =>
    obtain rfl := step_stopExchange hs
    rfl

/-- **There is one thread object for each worker ever created.** For every configuration
and every run from `start` on: `queryWorkers_` never holds more than `query_threads_max`
entries if and only if the workers `start` created and those the calls of the run create
are together no more than that, those that have long returned included. -/
theorem handles_le_iff_created [Inhabited R] (acts : List (Action R)) :
    Runs.Throughout (step cfg)
        (fun s => (s.workers.length : ℤ) ≤ cfg.queryThreadsMax) (start cfg) acts ↔
      (startedWorkers cfg : ℤ) + Runs.tally (step cfg) emplaces (start cfg) acts ≤
        cfg.queryThreadsMax := by
  have hlen : ((start cfg : State R (queueCapacity cfg)).workers.length : ℤ) =
      startedWorkers cfg := by
    rw [start_eq]
    simp
  rw [← hlen]
  refine Runs.throughout_le_iff (m := fun s : State R (queueCapacity cfg) =>
    (s.workers.length : ℤ)) fun s a t hs => ?_
  rw [workers_length_step hs]
  split <;> simp

end QueryDispatch

end MonitorSystem
