import MonitorSystem.Manager.QueryWorkers
import Mathlib.Data.Int.Order.Basic

/-!
# The pool of query workers growing and shrinking

Which pools keep their bounds in every run? A pool whose two bounds are the same has its
full size from the start and no worker to spare, and a pool whose queue cannot reach the
high watermark is never enlarged: nothing is added to such a pool (`QueryDispatch.Settled`),
and both the counter and the thread objects stay as `start` left them.

Every other pool breaks both bounds in some run. The runs are put together from pieces that
work for every configuration – the queue is filled up to the watermark, the pool grows, a
worker empties the queue, an idle worker leaves – and of each piece is known how many
scaling decisions are under way in it. One more worker than the minimum, and two idle
workers that look at the counter at the same time, leave the pool below its minimum
(`QueryDispatch.exists_worker_too_few`), even without a worker at all
(`QueryDispatch.last_worker_shrinks`). A full pool, one idle worker that leaves and one more
burst leave a thread object too many, no race needed
(`QueryDispatch.exists_handle_too_many`).
-/

namespace MonitorSystem

namespace QueryDispatch

variable {R : Type} {cfg : ManagerConfig}

/-! ### Scaling decisions under way -/

/-- The scaling decisions that have been taken and not carried out. -/
def pendingDecisions (s : State R (queueCapacity cfg)) : ℕ :=
  s.workers.countP (· = .shrinking) + s.calls.countP fun k => 5 ≤ k.pc.rank ∧ k.pc.rank ≤ 7

/-- Nothing is under way but the tasks in the queue. -/
structure Resting (s : State R (queueCapacity cfg)) : Prop where
  running : s.running = true
  pending : pendingDecisions s = 0
  tasks : ∀ c ∈ s.queue.items, c < s.calls.length

section Newcomer

variable {s : State R (queueCapacity cfg)} {i : ℕ}

/-- The state with one more call. -/
def withCall (s : State R (queueCapacity cfg)) (k : Call R) : State R (queueCapacity cfg) :=
  { s with calls := s.calls ++ [k] }

@[simp] theorem withCall_running (k : Call R) : (withCall s k).running = s.running := rfl

@[simp] theorem withCall_queue (k : Call R) : (withCall s k).queue = s.queue := rfl

@[simp] theorem withCall_workerCount (k : Call R) :
    (withCall s k).workerCount = s.workerCount := rfl

theorem setCall_withCall (k k' : Call R) :
    setCall (withCall s k) s.calls.length k' = withCall s k' := by
  simp [setCall, withCall]

theorem pendingDecisions_withCall (k : Call R) : pendingDecisions (withCall s k) =
    pendingDecisions s + if 5 ≤ k.pc.rank ∧ k.pc.rank ≤ 7 then 1 else 0 := by
  simp only [pendingDecisions, withCall, List.countP_append, List.countP_singleton,
    decide_eq_true_eq]
  omega

/-- A worker that moves has decided to shrink if that is where it goes. -/
theorem pendingDecisions_setWorker {old : WorkerPc} (pc : WorkerPc)
    (hi : s.workers[i]? = some old) (hold : old ≠ .shrinking) :
    pendingDecisions (setWorker s i pc) =
      pendingDecisions s + if pc = .shrinking then 1 else 0 := by
  have := Lists.countP_set_add (p := fun x : WorkerPc => x = .shrinking) pc hi
  simp only [decide_eq_true_eq, if_neg hold] at this
  simp only [pendingDecisions, setWorker]
  omega

/-- A worker that leaves has carried its decision out. -/
theorem pendingDecisions_retire (hi : s.workers[i]? = some .shrinking) :
    pendingDecisions (retire s i) + 1 = pendingDecisions s := by
  have := Lists.countP_set_add (p := fun x : WorkerPc => x = .shrinking) .exited hi
  simp only [decide_eq_true_eq, if_true, reduceCtorEq, if_false] at this
  simp only [pendingDecisions, retire, setWorker]
  omega

/-- A call that stays where it is decides nothing. -/
theorem pendingDecisions_setCall {c : ℕ} {k : Call R} (k' : Call R) (hk : s.calls[c]? = some k)
    (hpc : k'.pc = k.pc) : pendingDecisions (setCall s c k') = pendingDecisions s := by
  have := Lists.countP_set_add (p := fun k : Call R => 5 ≤ k.pc.rank ∧ k.pc.rank ≤ 7) k' hk
  rw [hpc] at this
  simp only [pendingDecisions, setCall]
  omega

end Newcomer

/-! ### Pieces of runs -/

section Pieces

variable [Inhabited R] {s t u : State R (queueCapacity cfg)} {i : ℕ}

/-- Some run before `stop` leads from `s` to `t`, with at most `m` scaling decisions under
way at any time. -/
def Leads (m : ℕ) (s t : State R (queueCapacity cfg)) : Prop :=
  Runs.Leads (step cfg) (· ≠ .stopExchange) (fun s => pendingDecisions s ≤ m) s t

/-- A call that stands here. -/
def callAt (pc : CallPc) : Call R := { Call.enter (some default) with pc }

/-- A call is made. -/
theorem Leads.call (h : pendingDecisions s = 0) (hu : Leads 1 (withCall s (callAt .sizeTest)) t) :
    Leads 1 s t :=
  Runs.Leads.head (.call (some default)) (by simp) (by omega) rfl hu

/-- The newest call takes its next action. -/
theorem Leads.advance {pc : CallPc} (h : pendingDecisions s = 0)
    (hs : callStep cfg (withCall s (callAt pc)) s.calls.length (callAt pc) = some u)
    (hu : Leads 1 u t) : Leads 1 (withCall s (callAt pc)) t := by
  refine Runs.Leads.head (.advance s.calls.length) (by simp) ?_ ?_ hu
  · rw [pendingDecisions_withCall, h]
    split <;> omega
  · simpa [step, withCall] using hs

/-- The newest call moves on to another place. -/
theorem Leads.walk {pc : CallPc} (pc' : CallPc) (h : pendingDecisions s = 0)
    (hs : callStep cfg (withCall s (callAt pc)) s.calls.length (callAt pc) =
      some (setCall (withCall s (callAt pc)) s.calls.length (callAt pc')))
    (hu : Leads 1 (withCall s (callAt pc')) t) : Leads 1 (withCall s (callAt pc)) t := by
  rw [setCall_withCall] at hs
  exact .advance h hs hu

/-- A worker takes its next action. -/
theorem Leads.work {m : ℕ} (pc : WorkerPc) (hi : s.workers[i]? = some pc)
    (h : pendingDecisions s ≤ m) (hs : workStep cfg s i pc = some u) (hu : Leads m u t) :
    Leads m s t :=
  Runs.Leads.head (.work i) (by simp) h (by simp [step, hi, hs]) hu

/-- **One more task**, as long as the queue is below the watermark. -/
theorem Resting.enqueue (h : Resting s) (hlow : s.queue.size < cfg.queryQueueHighWatermark)
    (hcap : s.queue.size < queueCapacity cfg) :
    ∃ t, Leads 1 s t ∧ Resting t ∧ t.workers = s.workers ∧ t.workerCount = s.workerCount ∧
      t.queue.size = s.queue.size + 1 := by
  obtain ⟨q, hq, hitems⟩ := Fifo.write_isSome (a := s.calls.length) hcap
  have hset := setCall_withCall (s := s) (callAt .writing) { callAt .waiting with accepted := true }
  have hpending := pendingDecisions_withCall (s := s) { callAt .waiting with accepted := true }
  rw [h.pending, if_neg (by simp [callAt, CallPc.rank]), ← hset] at hpending
  refine ⟨accept (withCall s (callAt .writing)) s.calls.length (callAt .writing) q, ?_,
    ⟨h.running, hpending, fun c hc => ?_⟩, rfl, rfl, ?_⟩
  · refine .call h.pending (.walk .runningTest h.pending ?_ (.walk .writing h.pending ?_
      (.advance h.pending ?_ (.refl (le_of_eq_of_le hpending (by decide))))))
    · simp [callStep, callAt, not_le.mpr hlow]
    · simp [callStep, callAt, h.running]
    · simp [callStep, callAt, hq]
  · have hlen : (setCall (withCall s (callAt .writing)) s.calls.length
        { callAt .waiting with accepted := true }).calls.length = s.calls.length + 1 := by
      simp [setCall, withCall]
    refine lt_of_lt_of_eq ?_ hlen.symm
    rcases List.mem_append.mp (hitems ▸ hc) with hc | hc
    · exact Nat.lt_succ_of_lt (h.tasks c hc)
    · rw [List.mem_singleton.mp hc]
      omega
  · simp [accept, Fifo.size, hitems]

/-- **One more worker**: a call that finds the queue at the watermark, and room in the
pool, creates it. -/
theorem Resting.grow (h : Resting s) (hhigh : cfg.queryQueueHighWatermark ≤ s.queue.size)
    (hroom : s.workerCount < cfg.queryThreadsMax) :
    ∃ t, Leads 1 s t ∧ Resting t ∧ t.workers = s.workers ++ [.testRunning] ∧
      t.workerCount = s.workerCount + 1 ∧ t.queue = s.queue := by
  let n := s.workerCount
  -- the call stops short of its own queue write: only the worker it has made matters here
  let grown : State R (queueCapacity cfg) :=
    { s with workerCount := n + 1, workers := s.workers ++ [.testRunning] }
  have hgrown : pendingDecisions grown = 0 := by
    simpa [pendingDecisions, grown] using h.pending
  have hpending := pendingDecisions_withCall (s := grown) (callAt .capacityTest)
  rw [hgrown, if_neg (by simp [callAt, CallPc.rank])] at hpending
  refine ⟨withCall grown (callAt .capacityTest), ?_, ⟨h.running, hpending, fun c hc => ?_⟩,
    rfl, rfl, rfl⟩
  · refine .call h.pending (.walk .scaleTest h.pending ?_ (.walk .scaleLoad h.pending ?_
      (.walk .spawnLoad h.pending ?_ (.walk (.spawnAdd n) h.pending ?_
      (.advance (u := withCall { s with workerCount := n + 1 } (callAt (.spawnEmplace n)))
      h.pending ?_
      (.advance (s := { s with workerCount := n + 1 }) h.pending ?_
      (.refl (le_of_eq_of_le hpending (by decide)))))))))
    · simp [callStep, callAt, hhigh]
    · simp [callStep, callAt, not_lt.mpr hhigh]
    · simp [callStep, callAt, Int.not_le.mpr hroom]
    · simp [callStep, callAt, Int.not_le.mpr hroom, n]
    · simp [callStep, callAt, countWorker, setCall, withCall, n]
    · simp [callStep, callAt, emplaceWorker, setCall, withCall, grown]
  · simp only [withCall, List.length_append, List.length_singleton]
    exact Nat.lt_succ_of_lt (h.tasks c hc)

/-- **One task less**: a worker serves the oldest one. -/
theorem Resting.serve (h : Resting s) (hi : s.workers[i]? = some .testRunning) {c : ℕ}
    {rest : List ℕ} (hqueue : s.queue.items = c :: rest) :
    ∃ t, Leads 1 s t ∧ Resting t ∧ t.workers = s.workers ∧ t.workerCount = s.workerCount ∧
      t.queue.items = rest := by
  have hlt : i < s.workers.length := (List.getElem?_eq_some_iff.mp hi).1
  obtain ⟨q, hq, hrest⟩ := Fifo.read_of_cons hqueue
  obtain ⟨k, hk⟩ : ∃ k, s.calls[c]? = some k :=
    ⟨_, List.getElem?_eq_getElem (h.tasks c (by simp [hqueue]))⟩
  let u := begin (setWorker s i .reading) i c q
  let t := fulfil u i c k (.returned .OK)
  have hworkers : t.workers = s.workers := by
    have : s.workers[i] = .testRunning := (List.getElem?_eq_some_iff.mp hi).2
    simp [t, u, fulfil, begin, setWorker, setCall, ← this]
  have hreading : pendingDecisions (setWorker s i .reading) = 0 := by
    rw [pendingDecisions_setWorker _ hi (by simp), h.pending, if_neg (by simp)]
  have hexecuting : pendingDecisions u = 0 := by
    have hset : pendingDecisions u = pendingDecisions (setWorker s i (.executing c)) := by
      simp [u, pendingDecisions, begin, setWorker]
    rw [hset, pendingDecisions_setWorker _ hi (by simp), h.pending, if_neg (by simp)]
  have hserved : pendingDecisions t = 0 := by
    have hat : u.workers[i]? = some (.executing c) := by simp [u, begin, setWorker, hlt]
    have hset := pendingDecisions_setCall (s := u)
      { k with promise := some Status.OK, ended := some (.returned .OK, k.result) } hk rfl
    refine (pendingDecisions_setWorker (s := setCall u c _) .testRunning hat (by simp)).trans ?_
    rw [if_neg (by simp)]
    exact hset.trans hexecuting
  refine ⟨t, ?_, ⟨h.running, hserved, fun d hd => ?_⟩, hworkers, rfl, hrest⟩
  · refine .work .testRunning hi (by rw [h.pending]; omega) (u := setWorker s i .reading) ?_
      (.work (i := i) .reading ?_ (by omega) (u := u) ?_
      (Runs.Leads.head (.complete i (.returned .OK)) (by simp) (by omega) ?_
      (.refl (by omega))))
    · simp [workStep, h.running]
    · simp [setWorker, hlt]
    · simp [workStep, setWorker, hq, u]
    · simp [step, u, t, begin, setWorker, hlt, hk]
  · have hlen : t.calls.length = s.calls.length := by
      simp [t, u, fulfil, begin, setWorker, setCall]
    rw [hlen]
    have hmem : d ∈ q.items := hd
    exact h.tasks d (by simp [hqueue, ← hrest, hmem])

/-- A worker finds the queue empty and a worker too many, and decides to shrink. -/
theorem leads_shrinking {m : ℕ} (hrun : s.running = true) (hqueue : s.queue.items = [])
    (hi : s.workers[i]? = some .testRunning) (hmany : cfg.queryThreadsMin < s.workerCount)
    (hm : pendingDecisions s < m) : Leads m s (setWorker s i .shrinking) := by
  have hlt : i < s.workers.length := (List.getElem?_eq_some_iff.mp hi).1
  have hpending (pc : WorkerPc) : pendingDecisions (setWorker s i pc) ≤ m := by
    rw [pendingDecisions_setWorker pc hi (by simp)]
    split <;> omega
  have hat (pc : WorkerPc) : (setWorker s i pc).workers[i]? = some pc := by
    simp [setWorker, hlt]
  have hset (pc pc' : WorkerPc) : setWorker (setWorker s i pc) i pc' = setWorker s i pc' := by
    simp [setWorker]
  refine .work _ hi hm.le (u := setWorker s i .reading) ?_ (.work _ (hat _) (hpending _)
    (u := setWorker s i .idle) ?_ (Runs.Leads.head (.idle i true) (by simp) (hpending _) ?_
    (.refl (hpending _))))
  · simp [workStep, hrun]
  · simp [workStep, setWorker, Fifo.read_of_nil hqueue]
  · have hmany' : cfg.queryThreadsMin < (setWorker s i .idle).workerCount := hmany
    simp [step, hat, hmany', hset]

/-- A worker that has decided to shrink leaves. -/
theorem leads_retire {m : ℕ} (hi : s.workers[i]? = some .shrinking)
    (hm : pendingDecisions s ≤ m) : Leads m s (retire s i) := by
  have hretire := pendingDecisions_retire hi
  refine .work _ hi hm ?_ (.refl (by omega))
  simp [workStep]

/-- **One worker less**: an idle worker leaves if there is one too many. -/
theorem Resting.shrink (h : Resting s) (hqueue : s.queue.items = [])
    (hi : s.workers[i]? = some .testRunning) (hmany : cfg.queryThreadsMin < s.workerCount) :
    ∃ t, Leads 1 s t ∧ Resting t ∧ t.workers.length = s.workers.length ∧
      t.workerCount = s.workerCount - 1 ∧ t.queue = s.queue := by
  have hlt : i < s.workers.length := (List.getElem?_eq_some_iff.mp hi).1
  have hat : (setWorker s i .shrinking).workers[i]? = some .shrinking := by simp [setWorker, hlt]
  have hpending := pendingDecisions_setWorker .shrinking hi (by simp)
  rw [h.pending, if_pos rfl] at hpending
  have hretire := pendingDecisions_retire hat
  refine ⟨retire (setWorker s i .shrinking) i, ?_, ⟨h.running, by omega, h.tasks⟩, ?_, rfl, rfl⟩
  · exact (leads_shrinking h.running hqueue hi hmany (by simp [h.pending])).trans
      (leads_retire hat hpending.le)
  · simp [retire, setWorker]

/-- **The queue is filled up to the watermark.** -/
theorem Resting.fill (h : Resting s) (hcap : cfg.queryQueueHighWatermark ≤ queueCapacity cfg)
    {n : ℕ} (hn : s.queue.size + n = cfg.queryQueueHighWatermark) :
    ∃ t, Leads 1 s t ∧ Resting t ∧ t.workers = s.workers ∧ t.workerCount = s.workerCount ∧
      t.queue.size = cfg.queryQueueHighWatermark := by
  induction n generalizing s with
  | zero => exact ⟨s, .refl (by simp [h.pending]), h, rfl, rfl, hn⟩
  | succ n ih =>
    obtain ⟨u, hu, hrest, hw, hc, hsize⟩ := h.enqueue (by omega) (by omega)
    obtain ⟨t, ht, hrest', hw', hc', hsize'⟩ := ih hrest (by omega)
    exact ⟨t, hu.trans ht, hrest', hw'.trans hw, hc'.trans hc, hsize'⟩

/-- **The pool grows** as far as there is room, while the queue is at the watermark. -/
theorem Resting.growBy (h : Resting s) (hhigh : cfg.queryQueueHighWatermark ≤ s.queue.size)
    (n : ℕ) (hroom : s.workerCount + n ≤ cfg.queryThreadsMax) :
    ∃ t, Leads 1 s t ∧ Resting t ∧ t.workers = s.workers ++ List.replicate n .testRunning ∧
      t.workerCount = s.workerCount + n := by
  induction n generalizing s with
  | zero => exact ⟨s, .refl (by simp [h.pending]), h, by simp, by simp⟩
  | succ n ih =>
    obtain ⟨u, hu, hrest, hw, hc, hq⟩ := h.grow hhigh (by omega)
    obtain ⟨t, ht, hrest', hw', hc'⟩ := ih hrest (hq ▸ hhigh) (by omega)
    refine ⟨t, hu.trans ht, hrest', ?_, by omega⟩
    rw [hw', hw, List.append_assoc, List.replicate_succ, List.singleton_append]

/-- **The queue is emptied** by one worker. -/
theorem Resting.drain (h : Resting s) (hi : s.workers[i]? = some .testRunning) {tasks : List ℕ}
    (hqueue : s.queue.items = tasks) :
    ∃ t, Leads 1 s t ∧ Resting t ∧ t.workers = s.workers ∧ t.workerCount = s.workerCount ∧
      t.queue.items = [] := by
  induction tasks generalizing s with
  | nil => exact ⟨s, .refl (by simp [h.pending]), h, rfl, rfl, hqueue⟩
  | cons c rest ih =>
    obtain ⟨u, hu, hrest, hw, hc, hq⟩ := h.serve hi hqueue
    obtain ⟨t, ht, hrest', hw', hc', hq'⟩ := ih hrest (hw ▸ hi) hq
    exact ⟨t, hu.trans ht, hrest', hw'.trans hw, hc'.trans hc, hq'⟩

omit [Inhabited R] in
/-- What `start` leaves is at rest. -/
theorem Resting.start : Resting (start cfg : State R (queueCapacity cfg)) := by
  rw [start_eq]
  refine ⟨rfl, ?_, by simp [unstarted]⟩
  simp [pendingDecisions, unstarted, List.countP_replicate]

theorem startedWorkers_le (hmax : 0 ≤ cfg.queryThreadsMax) :
    (startedWorkers cfg : ℤ) ≤ cfg.queryThreadsMax := by
  unfold startedWorkers initialQueryThreads
  split <;> omega

/-- **The pool can have any number of workers** between those `start` creates and the
maximum, all of them idle, if the queue can reach the watermark. -/
theorem exists_idle_pool (hcap : cfg.queryQueueHighWatermark ≤ queueCapacity cfg) {n : ℕ}
    (hpos : 0 < startedWorkers cfg) (hn : startedWorkers cfg ≤ n)
    (hmax : (n : ℤ) ≤ cfg.queryThreadsMax) :
    ∃ t : State R (queueCapacity cfg), Leads 1 (QueryDispatch.start cfg) t ∧ Resting t ∧
      t.workers = List.replicate n .testRunning ∧ t.workerCount = n ∧ t.queue.items = [] := by
  have hstart := start_eq (R := R) cfg
  have hrest : Resting (QueryDispatch.start cfg : State R (queueCapacity cfg)) := .start
  obtain ⟨s₁, hs₁, hrest₁, hw₁, hc₁, hq₁⟩ := hrest.fill hcap
    (n := cfg.queryQueueHighWatermark) (by simp [hstart, unstarted, Fifo.size])
  simp only [hstart] at hw₁ hc₁
  obtain ⟨s₂, hs₂, hrest₂, hw₂, hc₂⟩ := hrest₁.growBy hq₁.ge (n - startedWorkers cfg) (by omega)
  have hworkers : s₂.workers = List.replicate n .testRunning := by
    rw [hw₂, hw₁, List.replicate_append_replicate]
    congr 1
    omega
  obtain ⟨s₃, hs₃, hrest₃, hw₃, hc₃, hq₃⟩ := hrest₂.drain (i := 0)
    (by simp [hworkers, List.getElem?_replicate]; omega) rfl
  exact ⟨s₃, (hs₁.trans hs₂).trans hs₃, hrest₃, hw₃.trans hworkers, by omega, hq₃⟩

end Pieces

/-! ### Pools that never grow -/

/-- **The pools to which no worker is ever added**: those whose maximum is not above their
minimum, those that may have no worker, and those whose queue cannot reach the watermark. -/
def NeverGrows (cfg : ManagerConfig) : Prop :=
  cfg.queryThreadsMax ≤ cfg.queryThreadsMin ∨ cfg.queryThreadsMax = 0 ∨
    queueCapacity cfg < cfg.queryQueueHighWatermark

instance (cfg : ManagerConfig) : Decidable (NeverGrows cfg) :=
  inferInstanceAs (Decidable (_ ∨ _ ∨ _))

/-- No worker is too many. -/
def NoneToSpare (cfg : ManagerConfig) : Prop :=
  (startedWorkers cfg : ℤ) ≤ cfg.queryThreadsMin ∨ startedWorkers cfg = 0

theorem noneToSpare_of_max_le
    (h : cfg.queryThreadsMax ≤ cfg.queryThreadsMin ∨ cfg.queryThreadsMax = 0) :
    NoneToSpare cfg ∧ cfg.queryThreadsMax ≤ startedWorkers cfg := by
  unfold NoneToSpare startedWorkers initialQueryThreads
  split <;> omega

/-- The invariant of such a pool: nobody is about to add a worker, and, where no worker is
too many, nobody is about to leave. A call is at its load of the counter only if the queue
can reach the watermark. -/
structure Settled (s : State R (queueCapacity cfg)) : Prop where
  serving : Serving s
  calls : ∀ k ∈ s.calls, 5 ≤ k.pc.rank → k.pc.rank ≤ 8 →
    k.pc.rank = 8 ∧ cfg.queryQueueHighWatermark ≤ queueCapacity cfg
  length : s.workers.length = startedWorkers cfg
  steady : NoneToSpare cfg → s.workerCount = startedWorkers cfg ∧ .shrinking ∉ s.workers

section Settled

variable {s s' : State R (queueCapacity cfg)} {c i : ℕ}

theorem Settled.start : Settled (start cfg : State R (queueCapacity cfg)) := by
  refine ⟨.start, ?_, ?_, fun _ => ?_⟩ <;> rw [start_eq]
  · simp [unstarted]
  · simp
  · simp

/-- A call that is past the scaling leaves the pool alone. -/
theorem callStep_of_rank_le {k : Call R} (hrank : k.pc.rank ≤ 4)
    (hs : callStep cfg s c k = some s') :
    (∃ k', s'.calls = s.calls.set c k' ∧ k'.pc.rank ≤ 4) ∧
    s'.workers = s.workers ∧ s'.workerCount = s.workerCount := by
  obtain ⟨pc, hw, rfl⟩ | ⟨cur, hpc, rfl⟩ | ⟨hpc, rfl⟩ | ⟨-, -, rfl⟩ | ⟨q, -, -, rfl⟩ |
    ⟨status, -, -, rfl⟩ := callStep_cases hs
  · exact ⟨⟨_, rfl, hw.closer.le.trans hrank⟩, rfl, rfl⟩
  · simp [hpc, CallPc.rank] at hrank
  · cases hk : k.pc <;> simp [hk, CallPc.rank, CallPc.emplacing] at hrank hpc
  · exact ⟨⟨_, rfl, by simp [CallPc.rank]⟩, rfl, rfl⟩
  · exact ⟨⟨_, rfl, by simp [CallPc.rank]⟩, rfl, rfl⟩
  · refine ⟨⟨_, rfl, ?_⟩, rfl, rfl⟩
    unfold Call.finish
    split <;> simp [CallPc.rank]

/-- What a settled pool allows a call to do: it does not come near the creation of a
worker. -/
theorem Settled.callStep (h : Settled s) (hcfg : NeverGrows cfg) {k : Call R}
    (hk : s.calls[c]? = some k) (hs : callStep cfg s c k = some s') :
    (∃ k', s'.calls = s.calls.set c k' ∧ (5 ≤ k'.pc.rank → k'.pc.rank ≤ 8 →
      k'.pc.rank = 8 ∧ cfg.queryQueueHighWatermark ≤ queueCapacity cfg)) ∧
    s'.workers = s.workers ∧ s'.workerCount = s.workerCount := by
  have hcall := h.calls k (List.mem_of_getElem? hk)
  cases hpc : k.pc with
  | sizeTest =>
    simp only [QueryDispatch.callStep, hpc, Option.some.injEq] at hs
    subst hs
    refine ⟨⟨_, rfl, ?_⟩, rfl, rfl⟩
    split <;> simp [CallPc.rank]
  | scaleTest =>
    simp only [QueryDispatch.callStep, hpc, Option.some.injEq] at hs
    subst hs
    refine ⟨⟨_, rfl, ?_⟩, rfl, rfl⟩
    split
    · simp [CallPc.rank]
    · next hhigh => exact fun _ _ => ⟨rfl, (not_lt.mp hhigh).trans s.queue.length_le⟩
  | scaleLoad =>
    simp only [QueryDispatch.callStep, hpc, Option.some.injEq] at hs
    subst hs
    -- the call is here, so the queue can reach the watermark and the pool has its full size
    have hreach := (hcall (by simp [hpc, CallPc.rank]) (by simp [hpc, CallPc.rank])).2
    have hfixed : cfg.queryThreadsMax ≤ cfg.queryThreadsMin ∨ cfg.queryThreadsMax = 0 := by
      rcases hcfg with h | h | h
      · exact .inl h
      · exact .inr h
      · omega
    obtain ⟨hnone, hfull⟩ := noneToSpare_of_max_le hfixed
    have hcount := (h.steady hnone).1
    refine ⟨⟨_, rfl, ?_⟩, rfl, rfl⟩
    rw [if_pos (by omega)]
    simp [CallPc.rank]
  | spawnLoad => simp [hpc, CallPc.rank] at hcall
  | spawnAdd current => simp [hpc, CallPc.rank] at hcall
  | spawnEmplace current => simp [hpc, CallPc.rank] at hcall
  | _ =>
    obtain ⟨⟨k', hset, hrank⟩, hpool⟩ :=
      callStep_of_rank_le (by simp [hpc, CallPc.rank]) hs
    exact ⟨⟨k', hset, fun _ _ => by omega⟩, hpool⟩

/-- A worker that moves keeps the pool settled, as long as it does not shrink where no
worker is too many. -/
theorem Settled.move (h : Settled s) (hserving : Serving s') {pc : WorkerPc}
    (hw : s'.workers = s.workers.set i pc) (hc : s'.calls = s.calls)
    (hpc : NoneToSpare cfg → s'.workerCount = s.workerCount ∧ pc ≠ .shrinking) : Settled s' := by
  refine ⟨hserving, hc ▸ h.calls, by rw [hw, List.length_set, h.length], fun hnone => ?_⟩
  obtain ⟨hcount, hnot⟩ := h.steady hnone
  refine ⟨(hpc hnone).1.trans hcount, fun hmem => ?_⟩
  rw [hw] at hmem
  rcases List.mem_or_eq_of_mem_set hmem with hmem | heq
  · exact hnot hmem
  · exact (hpc hnone).2 heq.symm

/-- A call that moves keeps the pool settled, as long as it does not come near the creation
of a worker. -/
theorem Settled.moveCall (h : Settled s) (hserving : Serving s') {k : Call R}
    (hc : ∀ x ∈ s'.calls, x = k ∨ x ∈ s.calls)
    (hk : 5 ≤ k.pc.rank → k.pc.rank ≤ 8 →
      k.pc.rank = 8 ∧ cfg.queryQueueHighWatermark ≤ queueCapacity cfg)
    (hw : s'.workers = s.workers) (hcount : s'.workerCount = s.workerCount) : Settled s' := by
  refine ⟨hserving, fun x hx => ?_, hw ▸ h.length, fun hnone => ?_⟩
  · rcases hc x hx with rfl | hmem
    · exact hk
    · exact h.calls x hmem
  · rw [hw, hcount]
    exact h.steady hnone

/-- **A settled pool stays settled.** -/
theorem Settled.step [Inhabited R] (h : Settled s) (hcfg : NeverGrows cfg) {a : Action R}
    (ha : a ≠ .stopExchange) (hs : step cfg s a = some s') : Settled s' := by
  have hserving := h.serving.step ha hs
  cases a with
  | call response =>
    obtain rfl := step_call hs
    refine h.moveCall hserving (k := Call.enter response) ?_ ?_ rfl rfl
    · intro x hx
      exact (List.mem_append.mp hx).symm.imp_left List.mem_singleton.mp
    · unfold Call.enter
      cases response <;> simp [CallPc.rank]
  | advance c =>
    obtain ⟨k, hk, hs⟩ := step_advance hs
    obtain ⟨⟨k', hset, hrank⟩, hw, hcount⟩ := h.callStep hcfg hk hs
    refine h.moveCall hserving (fun x hx => ?_) hrank hw hcount
    rw [hset] at hx
    exact (List.mem_or_eq_of_mem_set hx).symm
  | timeout c =>
    obtain ⟨k, hk, -, -, rfl⟩ := step_timeout hs
    refine h.moveCall hserving (fun x hx => (List.mem_or_eq_of_mem_set hx).symm) ?_ rfl rfl
    simp [CallPc.rank]
  | work i =>
    obtain ⟨pc, hi, hs⟩ := step_work hs
    obtain ⟨-, rfl⟩ | ⟨-, rfl⟩ | ⟨-, rfl⟩ | ⟨c, q, -, -, rfl⟩ | ⟨hpc, rfl⟩ := workStep_cases hs
    · refine h.move hserving rfl rfl fun _ => ⟨rfl, ?_⟩
      split <;> simp
    · refine h.move hserving rfl rfl fun _ => ⟨rfl, ?_⟩
      split <;> simp
    · exact h.move hserving rfl rfl fun _ => ⟨rfl, by simp⟩
    · exact h.move hserving rfl rfl fun _ => ⟨rfl, by simp⟩
    · refine h.move hserving rfl rfl fun hnone => absurd (List.mem_of_getElem? hi) ?_
      rcases hpc with rfl | rfl
      · exact (h.steady hnone).2
      · intro hmem
        cases h.serving.workers _ hmem
  | idle i expired =>
    obtain ⟨hi, rfl⟩ := step_idle hs
    refine h.move hserving rfl rfl fun hnone => ⟨rfl, ?_⟩
    have hlt : i < s.workers.length := (List.getElem?_eq_some_iff.mp hi).1
    have hcount := (h.steady hnone).1
    have hlength := h.length
    rw [if_neg]
    · simp
    · rcases hnone with hnone | hnone <;> omega
  | produce i r =>
    obtain ⟨c, k, -, hk, rfl⟩ := step_produce hs
    exact h.moveCall hserving (fun x hx => (List.mem_or_eq_of_mem_set hx).symm)
      (h.calls k (List.mem_of_getElem? hk)) rfl rfl
  | complete i how =>
    obtain ⟨c, k, -, hk, rfl⟩ := step_complete hs
    have hset : Settled (setCall s c { k with
        promise := some how.status, ended := some (how, k.result) }) :=
      h.moveCall ⟨h.serving.running, h.serving.workers⟩
        (fun x hx => (List.mem_or_eq_of_mem_set hx).symm)
        (h.calls k (List.mem_of_getElem? hk)) rfl rfl
    exact hset.move hserving rfl rfl fun _ => ⟨rfl, by simp⟩
  | stopExchange => exact absurd rfl ha

theorem Settled.run [Inhabited R] (hcfg : NeverGrows cfg) {acts : List (Action R)}
    (hacts : ∀ a ∈ acts, a ≠ .stopExchange)
    (hr : Runs.run (QueryDispatch.step cfg) (QueryDispatch.start cfg) acts = some s) :
    Settled s :=
  Runs.run_invariant_along (fun _ _ _ h ha hs => h.step hcfg ha hs) .start
    (Runs.along_of_forall hacts) hr

end Settled

/-! ### The bounds of the pool -/

section Bounds

variable {s : State R (queueCapacity cfg)}

theorem Settled.served (h : Settled s) (hcounted : Counted s) (hmin : 1 ≤ cfg.queryThreadsMin)
    (hmax : cfg.queryThreadsMin ≤ cfg.queryThreadsMax) : Served s := by
  have hstarted := startedWorkers_eq hmin hmax
  have hcount := (h.steady (.inl hstarted.le)).1
  have hlive : s.workerCount = liveWorkers s := hcounted
  exact ⟨by omega, by omega, hlive, by omega⟩

variable [Inhabited R]

/-- **A pool that can grow loses a worker too many** in some run: it has one worker more
than the minimum, and two idle workers both find one too many before either has left. -/
theorem exists_worker_too_few (hmin : 1 ≤ cfg.queryThreadsMin)
    (hmax : cfg.queryThreadsMin < cfg.queryThreadsMax)
    (hcap : cfg.queryQueueHighWatermark ≤ queueCapacity cfg) :
    ∃ t : State R (queueCapacity cfg), Leads 2 (start cfg) t ∧ ¬Served t := by
  have hstarted := startedWorkers_eq hmin hmax.le
  obtain ⟨s, hs, hrest, hw, hc, hq⟩ := exists_idle_pool (R := R) hcap (by omega)
    (n := startedWorkers cfg + 1) (by omega) (by omega)
  have hat (i : ℕ) (hi : i < startedWorkers cfg + 1) : s.workers[i]? = some .testRunning := by
    simp [hw, hi]
  have h₀ := hat 0 (by omega)
  have h₁ : (setWorker s 0 .shrinking).workers[1]? = some .testRunning := by
    rw [setWorker, List.getElem?_set_ne (by decide)]
    exact hat 1 (by omega)
  have hp₀ := pendingDecisions_setWorker .shrinking h₀ (by simp)
  rw [hrest.pending, if_pos rfl] at hp₀
  have hp₁ := pendingDecisions_setWorker .shrinking h₁ (by simp)
  rw [hp₀, if_pos rfl] at hp₁
  -- both workers have decided; then one leaves, and the other
  obtain ⟨both, hboth⟩ : ∃ t, t = setWorker (setWorker s 0 .shrinking) 1 .shrinking := ⟨_, rfl⟩
  have hlen : s.workers.length = startedWorkers cfg + 1 := by simp [hw]
  have hb₀ : both.workers[0]? = some .shrinking := by
    rw [hboth, setWorker, List.getElem?_set_ne (by decide), setWorker,
      List.getElem?_set_self (by omega)]
  have hb₁ : (retire both 0).workers[1]? = some .shrinking := by
    rw [retire, setWorker, List.getElem?_set_ne (by decide), hboth, setWorker,
      List.getElem?_set_self (by simp only [setWorker, List.length_set]; omega)]
  have hcount : both.workerCount = s.workerCount := by rw [hboth]; rfl
  have hretire := pendingDecisions_retire hb₀
  rw [← hboth] at hp₁
  refine ⟨retire (retire both 0) 1, ?_, fun hserved => ?_⟩
  · exact ((((hs.mono fun _ h => h.trans (by decide)).trans
      (leads_shrinking hrest.running hq h₀ (by omega) (by simp [hrest.pending]))).trans
      (leads_shrinking hrest.running hq h₁ (by simp only [setWorker]; omega) (by omega))).trans
      (hboth ▸ leads_retire hb₀ hp₁.le)).trans (leads_retire hb₁ (by omega))
  · have hle : cfg.queryThreadsMin ≤ both.workerCount - 1 - 1 := hserved.min_le
    omega

/-- **When the bounds on the pool hold.** For every configuration with
`1 ≤ query_threads_min ≤ query_threads_max`: in a run between `start` and `stop` the counter
stays within the bounds, equals the number of live workers and is at least one, if and only
if each `fetch_add` of a submitter finds room and each `fetch_sub` of an idle worker finds a
worker too many; and it is so in every run if and only if the two bounds are the same or the
queue cannot reach the watermark. -/
theorem served_iff_scalesInBounds (hmin : 1 ≤ cfg.queryThreadsMin)
    (hmax : cfg.queryThreadsMin ≤ cfg.queryThreadsMax) :
    (∀ acts : List (Action R), (∀ a ∈ acts, a ≠ .stopExchange) →
      (Runs.Throughout (step cfg) Served (start cfg) acts ↔
        Runs.Along (step cfg) ScalesInBounds (start cfg) acts)) ∧
    ((∀ acts : List (Action R), (∀ a ∈ acts, a ≠ .stopExchange) →
      Runs.Throughout (step cfg) Served (start cfg) acts) ↔
        cfg.queryThreadsMin = cfg.queryThreadsMax ∨
          queueCapacity cfg < cfg.queryQueueHighWatermark) := by
  refine ⟨fun acts hacts => throughout_served_iff hmin hmax hacts, fun h => ?_,
    fun hcfg acts hacts bs hbs s hr => ?_⟩
  · by_contra hcfg
    obtain ⟨hne, hcap⟩ := not_or.mp hcfg
    obtain ⟨t, ⟨acts, hacts, -, hr⟩, hfew⟩ := exists_worker_too_few (R := R) hmin
      (lt_of_le_of_ne hmax hne) (not_lt.mp hcap)
    exact hfew (h acts hacts acts List.prefix_rfl t hr)
  · have hgrow : NeverGrows cfg := hcfg.imp (fun h => h.ge) .inr
    have hsettled := Settled.run hgrow (fun a ha => hacts a (hbs.mem ha)) hr
    have hcounted := Runs.run_invariant (fun _ _ _ h hs => Counted.step h hs) .start hr
    exact hsettled.served hcounted hmin hmax

/-- A pool of one or two workers that grows as soon as a task is waiting. -/
def smallPool : ManagerConfig :=
  { queryThreadsMin := 1, queryThreadsMax := 2, queryQueueCapacity := 8,
    queryQueueHighWatermark := 1 }

/-- Two calls in a row: the first one's task is still queued when the second call
comes, so the second call makes a worker. -/
def burst (c : ℕ) : List (Action Unit) :=
  .call (some ()) :: List.replicate 3 (.advance c) ++
    .call (some ()) :: List.replicate 9 (.advance (c + 1))

/-- A worker takes a task and runs it. -/
def serve (i : ℕ) : List (Action Unit) := [.work i, .work i, .complete i (.returned .OK)]

/-- A worker finds the queue empty, its idle period over, and shrinks. -/
def shrink (i : ℕ) : List (Action Unit) := [.work i, .work i, .idle i true, .work i]

theorem served_iff_scalesInBounds_burst :
    (1 ≤ smallPool.queryThreadsMin ∧ smallPool.queryThreadsMin ≤ smallPool.queryThreadsMax) ∧
    (Runs.Throughout (step smallPool) Served (start smallPool) (burst 0 ++ serve 0 ++ shrink 1) ↔
      Runs.Along (step smallPool) ScalesInBounds (start smallPool)
        (burst 0 ++ serve 0 ++ shrink 1)) ∧
    ¬∀ acts : List (Action Unit), (∀ a ∈ acts, a ≠ .stopExchange) →
      Runs.Throughout (step smallPool) Served (start smallPool) acts :=
  ⟨⟨by decide, by decide⟩,
    (served_iff_scalesInBounds (by decide) (by decide)).1 _ (by decide),
    (served_iff_scalesInBounds (by decide) (by decide)).2.not.mpr (by decide)⟩

/-- **The last worker may leave.** Two idle workers, one of them too many, both find
a worker too many before either has left; both leave, and the next task waits in a
queue that nobody reads. -/
theorem last_worker_shrinks :
    (1 ≤ smallPool.queryThreadsMin ∧ smallPool.queryThreadsMin ≤ smallPool.queryThreadsMax) ∧
    ∃ s, Runs.run (step smallPool) (start smallPool)
        (burst 0 ++ serve 0 ++ serve 0 ++
          [.work 0, .work 0, .work 1, .work 1, .idle 0 true, .idle 1 true, .work 0, .work 1] ++
          .call (some ()) :: List.replicate 3 (.advance 2)) = some s ∧
      s.running = true ∧ s.workerCount = 0 ∧ liveWorkers s = 0 ∧ s.queue.items = [2] ∧
      ¬Served s :=
  ⟨⟨by decide, by decide⟩, _, rfl, rfl, rfl, rfl, rfl, fun h => absurd h.live (by decide)⟩

end Bounds

/-! ### The thread objects -/

section Handles

variable {s : State R (queueCapacity cfg)}

/-- There are no more thread objects than there may be workers. -/
def HandlesBounded (s : State R (queueCapacity cfg)) : Prop :=
  (s.workers.length : ℤ) ≤ cfg.queryThreadsMax

/-- A pool that never grows keeps the thread objects it has. -/
theorem Settled.handlesBounded (h : Settled s) (hmax : 0 ≤ cfg.queryThreadsMax) :
    HandlesBounded s := by
  rw [HandlesBounded, h.length]
  exact startedWorkers_le hmax

variable [Inhabited R]

/-- **A pool that grows and shrinks has a thread object too many** after some run without a
race: it grows to its greatest size, an idle worker leaves, and another one is created. -/
theorem exists_handle_too_many (hmax : 1 ≤ cfg.queryThreadsMax) (hcfg : ¬NeverGrows cfg) :
    ∃ t : State R (queueCapacity cfg), Leads 1 (start cfg) t ∧ ¬HandlesBounded t := by
  obtain ⟨hmin, -, hcap⟩ : cfg.queryThreadsMin < cfg.queryThreadsMax ∧ _ ∧
      cfg.queryQueueHighWatermark ≤ queueCapacity cfg := by
    simpa [NeverGrows] using hcfg
  obtain ⟨n, hn⟩ := Int.eq_ofNat_of_zero_le (show 0 ≤ cfg.queryThreadsMax by omega)
  have hstarted : (startedWorkers cfg : ℤ) ≤ cfg.queryThreadsMax := startedWorkers_le (by omega)
  have hpos : 0 < startedWorkers cfg := by
    unfold startedWorkers initialQueryThreads
    rw [if_neg (by omega)]
    omega
  obtain ⟨s₁, hs₁, hrest₁, hw₁, hc₁, hq₁⟩ := exists_idle_pool (R := R) hcap hpos (n := n)
    (by omega) (by omega)
  obtain ⟨s₂, hs₂, hrest₂, hw₂, hc₂, hq₂⟩ := hrest₁.shrink (i := 0) hq₁
    (by simp [hw₁, List.getElem?_replicate]; omega) (by omega)
  obtain ⟨s₃, hs₃, hrest₃, hw₃, hc₃, hq₃⟩ := hrest₂.fill hcap
    (n := cfg.queryQueueHighWatermark) (by simp [Fifo.size, hq₂, hq₁])
  obtain ⟨s₄, hs₄, -, hw₄, -, -⟩ := hrest₃.grow hq₃.ge (by omega)
  refine ⟨s₄, ((hs₁.trans hs₂).trans hs₃).trans hs₄, ?_⟩
  have hlength : s₄.workers.length = n + 1 := by
    rw [hw₄, hw₃, List.length_append, hw₂, hw₁]
    simp
  rw [HandlesBounded, hlength]
  omega

/-- In a pool that never grows the thread objects are bounded in every run. -/
theorem handlesBounded_of_neverGrows (hmax : 0 ≤ cfg.queryThreadsMax) (hcfg : NeverGrows cfg)
    {acts : List (Action R)} (hacts : ∀ a ∈ acts, a ≠ .stopExchange) :
    Runs.Throughout (step cfg) HandlesBounded (start cfg) acts := by
  intro bs hbs s hr
  exact (Settled.run hcfg (fun a ha => hacts a (hbs.mem ha)) hr).handlesBounded hmax

/-- If the thread objects are bounded in every run in which no two scaling decisions overlap,
the pool never grows. -/
theorem neverGrows_of_handlesBounded
    (h : ∀ acts : List (Action R), (∀ a ∈ acts, a ≠ .stopExchange) →
      Runs.Throughout (step cfg) (fun s => pendingDecisions s ≤ 1) (start cfg) acts →
      Runs.Throughout (step cfg) HandlesBounded (start cfg) acts) :
    0 ≤ cfg.queryThreadsMax ∧ NeverGrows cfg := by
  have hmax : 0 ≤ cfg.queryThreadsMax := by
    have hstart := h [] (by simp)
      (Runs.throughout_nil.mpr (by simp [Resting.start.pending])) [] List.prefix_rfl _ rfl
    exact (Int.natCast_nonneg _).trans hstart
  refine ⟨hmax, by_contra fun hcfg => ?_⟩
  have hpos : 1 ≤ cfg.queryThreadsMax := by
    have : cfg.queryThreadsMax ≠ 0 := fun hzero => hcfg (.inr (.inl hzero))
    omega
  obtain ⟨t, ⟨acts, hacts, hpending, hr⟩, hmany⟩ := exists_handle_too_many (R := R) hpos hcfg
  exact hmany (h acts hacts hpending acts List.prefix_rfl t hr)

/-- **For which configurations the thread objects are bounded.** For every configuration:
in every run between `start` and `stop` there are never more thread objects than
`query_threads_max`, if and only if that number is not negative and the pool never grows;
and so it is for the runs in which no two scaling decisions overlap. -/
theorem handles_bounded_iff (cfg : ManagerConfig) :
    ((∀ acts : List (Action R), (∀ a ∈ acts, a ≠ .stopExchange) →
      Runs.Throughout (step cfg) HandlesBounded (start cfg) acts) ↔
        0 ≤ cfg.queryThreadsMax ∧ NeverGrows cfg) ∧
    ((∀ acts : List (Action R), (∀ a ∈ acts, a ≠ .stopExchange) →
      Runs.Throughout (step cfg) (fun s => pendingDecisions s ≤ 1) (start cfg) acts →
      Runs.Throughout (step cfg) HandlesBounded (start cfg) acts) ↔
        0 ≤ cfg.queryThreadsMax ∧ NeverGrows cfg) := by
  refine ⟨⟨fun h => ?_, fun h acts hacts => ?_⟩, ⟨neverGrows_of_handlesBounded, ?_⟩⟩
  · exact neverGrows_of_handlesBounded fun acts hacts _ => h acts hacts
  · exact handlesBounded_of_neverGrows h.1 h.2 hacts
  · intro h acts hacts _
    exact handlesBounded_of_neverGrows h.1 h.2 hacts

/-- **Bursts separated by idle periods exceed any number of thread objects**, with
every scaling decision carried out before the next one is taken and the counter
within its bounds throughout: here a pool of at most two workers keeps three. -/
theorem handles_exceed_max :
    Runs.Throughout (step smallPool) (fun s => pendingDecisions s ≤ 1 ∧ 1 ≤ s.workerCount ∧
        s.workerCount ≤ 2) (start smallPool)
      (burst 0 ++ serve 0 ++ serve 0 ++ shrink 1 ++ burst 2) ∧
    ∃ s, Runs.run (step smallPool) (start smallPool)
        (burst 0 ++ serve 0 ++ serve 0 ++ shrink 1 ++ burst 2) = some s ∧
      smallPool.queryThreadsMax = 2 ∧ s.workers.length = 3 :=
  ⟨by decide +kernel, _, rfl, rfl, rfl⟩

end Handles

end QueryDispatch

end MonitorSystem
