import MonitorSystem.Manager.QueryDispatch
import Mathlib.Data.List.Nodup

/-!
# What a query call returns

A caller of `submitQueryTask` hands a task to the pool and waits for it, but not for
ever; the task may return a status, throw, or never end, and it may end after its
caller has given up. What protects the caller is that the task works on a response of
its own, shared with the call, and that the call copies it only when the promise has
been fulfilled with an OK status.

`QueryDispatch.Call.outcome` reads off a call which of the four possible outcomes it
has had, and `QueryDispatch.query_contract` says what follows for the status it
returns and for the caller's response, in every state of every run. The invariant
that carries it, `QueryDispatch.Linked`, ties the calls to the queue and the workers:
an accepted call's task is queued or begun, once, and a task that is running has not
ended.
-/

namespace MonitorSystem

namespace QueryDispatch

variable {R : Type} {cfg : ManagerConfig}

/-! ### The outcome of a call -/

/-- How a call of a non-null response ends. -/
inductive Outcome where
  /-- The task was not accepted. -/
  | rejected
  /-- The wait timed out. -/
  | timedOut
  /-- The task ended in time. -/
  | ended (how : TaskEnd)
  deriving DecidableEq, Repr

/-- The status each outcome is reported with. -/
def Outcome.status : Outcome → Status
  | .rejected => ⟨.resourceExhausted, "manager query queue is full"⟩
  | .timedOut => ⟨.deadlineExceeded, "manager query task timed out"⟩
  | .ended (.returned status) => status
  | .ended (.threw what) => ⟨.internal, "manager query task failed: " ++ what⟩
  | .ended .threwUnknown => ⟨.internal, "manager query task failed with unknown error"⟩

/-- The outcome a call has had, read off what happened to it. -/
def Call.outcome (k : Call R) : Option Outcome :=
  if k.accepted = false then some .rejected
  else if k.timedOut then some .timedOut
  else k.ended.map fun e => .ended e.1

/-! ### The invariant of one call -/

/-- **What a call satisfies at every moment**, whatever its task does. -/
structure Call.Sound (k : Call R) : Prop where
  /-- The promise holds what the task's wrapper put into it. -/
  promise : k.promise = k.ended.map fun e => e.1.status
  /-- Once the task has ended, nobody writes its result. -/
  result : ∀ how r, k.ended = some (how, r) → k.result = r
  /-- Before the queue write. -/
  submitting : 2 ≤ k.pc.rank → k.accepted = false ∧ k.timedOut = false
  /-- Between the queue write and the end of the wait. -/
  waiting : k.pc = .waiting → k.accepted = true ∧ k.timedOut = false
  /-- Without an OK status, the response is as it was. -/
  unassigned : (∀ status, k.pc = .returned status → status.ok = false) →
    k.assigned = false ∧ k.response = k.initial
  /-- With an OK status, the response is what the task produced. -/
  assigned : ∀ status, k.pc = .returned status → status.ok = true →
    k.assigned = true ∧ ∃ r, k.ended = some (.returned status, r) ∧ k.response = some r
  /-- The status of a call of a non-null response is that of its outcome. -/
  returned : ∀ status, k.pc = .returned status → k.initial.isSome →
    ∃ o, k.outcome = some o ∧ o.status = status

namespace Call.Sound

variable {k : Call R}

theorem not_returned (pc : CallPc) (h : pc.rank ≠ 0) (status : Status) :
    pc ≠ .returned status := by
  rintro rfl
  exact h rfl

theorem enter [Inhabited R] (response : Option R) : (Call.enter response).Sound := by
  cases response <;> constructor <;>
    simp [Call.enter, CallPc.rank, Call.outcome, nullResponse, Status.ok, Outcome.status]

/-- A call that has not written the queue moves. -/
theorem move (h : k.Sound) (hold : 2 ≤ k.pc.rank) (pc : CallPc) (hnew : 2 ≤ pc.rank) :
    ({ k with pc := pc } : Call R).Sound where
  promise := h.promise
  result := h.result
  submitting _ := h.submitting hold
  waiting hpc := by
    obtain rfl : pc = .waiting := hpc
    exact absurd hnew (by decide)
  unassigned _ := h.unassigned fun status hpc => absurd hpc (not_returned k.pc (by omega) status)
  assigned status hpc := absurd hpc (not_returned pc (by omega) status)
  returned status hpc := absurd hpc (not_returned pc (by omega) status)

/-- A call that has not written the queue returns that the queue is full. -/
theorem reject (h : k.Sound) (hold : 2 ≤ k.pc.rank) :
    ({ k with pc := .returned queueFull } : Call R).Sound where
  promise := h.promise
  result := h.result
  submitting hpc := absurd hpc (by simp [CallPc.rank])
  waiting hpc := by cases hpc
  unassigned _ := h.unassigned fun status hpc => absurd hpc (not_returned k.pc (by omega) status)
  assigned status hpc hok := by
    cases hpc
    exact absurd hok (by decide)
  returned status hpc _ := by
    cases hpc
    exact ⟨.rejected, by simp [Call.outcome, (h.submitting hold).1], rfl⟩

/-- The queue write succeeds. -/
theorem accept (h : k.Sound) (hold : k.pc = .writing) :
    ({ k with pc := .waiting, accepted := true } : Call R).Sound where
  promise := h.promise
  result := h.result
  submitting hpc := absurd hpc (by simp [CallPc.rank])
  waiting _ := ⟨rfl, (h.submitting (by rw [hold]; decide)).2⟩
  unassigned _ := h.unassigned fun status hpc => by simp [hold] at hpc
  assigned status hpc := by cases hpc
  returned status hpc := by cases hpc

/-- The wait times out. -/
theorem expire (h : k.Sound) (hold : k.pc = .waiting) :
    ({ k with pc := .returned timedOutStatus, timedOut := true } : Call R).Sound where
  promise := h.promise
  result := h.result
  submitting hpc := absurd hpc (by simp [CallPc.rank])
  waiting hpc := by cases hpc
  unassigned _ := h.unassigned fun status hpc => by simp [hold] at hpc
  assigned status hpc hok := by
    cases hpc
    exact absurd hok (by decide)
  returned status hpc _ := by
    cases hpc
    exact ⟨.timedOut, by simp [Call.outcome, (h.waiting hold).1], rfl⟩

/-- The status of a task that throws is not OK. -/
theorem returned_of_ok {how : TaskEnd} (hok : how.status.ok = true) :
    how = .returned how.status := by
  cases how with
  | returned status => rfl
  | threw what => simp [TaskEnd.status, Status.ok] at hok
  | threwUnknown => simp [TaskEnd.status, Status.ok] at hok

/-- The future is ready and the call returns. -/
theorem finish (h : k.Sound) (hold : k.pc = .waiting) {status : Status}
    (hp : k.promise = some status) : (k.finish status).Sound := by
  obtain ⟨⟨how, r⟩, hended, rfl⟩ : ∃ e, k.ended = some e ∧ e.1.status = status := by
    rw [h.promise] at hp
    exact Option.map_eq_some_iff.mp hp
  have hwait := h.waiting hold
  have hun := h.unassigned fun status hpc => by simp [hold] at hpc
  have hout : ∀ k' : Call R, k'.accepted = k.accepted → k'.timedOut = k.timedOut →
      k'.ended = k.ended → ∃ o, k'.outcome = some o ∧ o.status = how.status := by
    intro k' ha ht he
    refine ⟨.ended how, by simp [Call.outcome, ha, ht, he, hwait, hended], ?_⟩
    cases how <;> rfl
  unfold Call.finish
  split
  · next hok =>
    have hown := returned_of_ok hok
    refine ⟨h.promise, h.result, fun hpc => absurd hpc (by simp [CallPc.rank]), ?_,
      fun hpc => absurd hok (by simp [hpc _ rfl]), ?_, ?_⟩
    · rintro ⟨⟩
    · rintro status ⟨⟩ -
      exact ⟨rfl, r, by rw [hended, ← hown], congrArg some (h.result how r hended)⟩
    · rintro status ⟨⟩ -
      exact hout _ rfl rfl rfl
  · next hok =>
    refine ⟨h.promise, h.result, fun hpc => absurd hpc (by simp [CallPc.rank]), ?_,
      fun _ => hun, ?_, ?_⟩
    · rintro ⟨⟩
    · rintro status ⟨⟩ hst
      exact absurd hst hok
    · rintro status ⟨⟩ -
      exact hout _ rfl rfl rfl

/-- The running task writes its result, into its own response. -/
theorem produce (h : k.Sound) (hended : k.ended = none) (r : R) :
    ({ k with result := r } : Call R).Sound where
  promise := h.promise
  result how r' he := by
    rw [show k.ended = some (how, r') from he] at hended
    cases hended
  submitting := h.submitting
  waiting := h.waiting
  unassigned := h.unassigned
  assigned := h.assigned
  returned := h.returned

/-- The running task ends. If its caller has returned, it had given up. -/
theorem fulfil (h : k.Sound) (hended : k.ended = none) (hacc : k.accepted = true)
    (how : TaskEnd) :
    ({ k with promise := some how.status, ended := some (how, k.result) } : Call R).Sound where
  promise := rfl
  result how' r he := by
    cases he
    rfl
  submitting := h.submitting
  waiting := h.waiting
  unassigned := h.unassigned
  assigned status hpc hok := by
    obtain ⟨-, r, he, -⟩ := h.assigned status hpc hok
    rw [hended] at he
    cases he
  returned status hpc hinit := by
    obtain ⟨o, ho, hst⟩ := h.returned status hpc hinit
    refine ⟨o, ?_, hst⟩
    -- the caller had returned before its task ended, so it had timed out
    cases hto : k.timedOut with
    | true => simpa [Call.outcome, hacc, hto] using ho
    | false => simp [Call.outcome, hacc, hto, hended] at ho

end Call.Sound

/-! ### The invariant of the calls, the queue and the workers -/

/-- **The invariant that ties the calls to the pool.** -/
structure Linked (s : State R (queueCapacity cfg)) : Prop where
  sound : ∀ (c : ℕ) (k : Call R), s.calls[c]? = some k → k.Sound
  /-- No task is begun twice, or begun and queued. -/
  nodup : (s.begun ++ s.queue.items).Nodup
  /-- The tasks that were begun or are queued are the accepted ones. -/
  accepted : ∀ c : ℕ, c ∈ s.begun ++ s.queue.items ↔ ∃ k, s.calls[c]? = some k ∧ k.accepted = true
  /-- Only a task that was begun has ended. -/
  begun : ∀ (c : ℕ) (k : Call R), s.calls[c]? = some k → k.ended ≠ none → c ∈ s.begun
  /-- A task that is running was begun and has not ended. -/
  executing : ∀ i c : ℕ, s.workers[i]? = some (.executing c) →
    c ∈ s.begun ∧ ∃ k, s.calls[c]? = some k ∧ k.ended = none
  /-- A task runs on one worker. -/
  unique : ∀ i j c : ℕ, s.workers[i]? = some (.executing c) →
    s.workers[j]? = some (.executing c) → i = j

namespace Linked

variable {s s' : State R (queueCapacity cfg)} {c i : ℕ} {k : Call R}

theorem start : Linked (start cfg : State R (queueCapacity cfg)) := by
  rw [start_eq]
  have hw : ∀ i c : ℕ, (List.replicate (startedWorkers cfg) WorkerPc.testRunning)[i]? ≠
      some (.executing c) := by
    intro i c h
    cases List.eq_of_mem_replicate (List.mem_of_getElem? h)
  constructor
  case executing => exact fun i c h => absurd h (hw i c)
  case unique => exact fun i j c h => absurd h (hw i c)
  all_goals simp [unstarted]

/-- A step that touches neither the calls nor the queue and begins no task. -/
theorem frame (h : Linked s) (hk : s'.calls = s.calls) (hq : s'.queue = s.queue)
    (hb : s'.begun = s.begun)
    (hw : ∀ i c : ℕ, s'.workers[i]? = some (.executing c) → s.workers[i]? = some (.executing c)) :
    Linked s' where
  sound := by
    rw [hk]
    exact h.sound
  nodup := by
    rw [hb, hq]
    exact h.nodup
  accepted := by
    rw [hk, hb, hq]
    exact h.accepted
  begun := by
    rw [hk, hb]
    exact h.begun
  executing i c hi := by
    rw [hk, hb]
    exact h.executing i c (hw i c hi)
  unique i j c hi hj := h.unique i j c (hw i c hi) (hw j c hj)

/-- A worker moves to a place where it runs no task. -/
theorem setWorker (h : Linked s) (pc : WorkerPc) (hpc : ∀ c, pc ≠ .executing c) :
    Linked (setWorker s i pc) := by
  refine h.frame rfl rfl rfl fun j c hj => ?_
  rw [QueryDispatch.setWorker, List.getElem?_set] at hj
  split at hj
  · split at hj
    · exact absurd (Option.some.inj hj) (hpc c)
    · cases hj
  · exact hj

/-- The entry of a call after the entry of one call was replaced. -/
theorem getElem?_setCall (hk : s.calls[c]? = some k) (k' : Call R) (d : ℕ) :
    (QueryDispatch.setCall s c k').calls[d]? = if d = c then some k' else s.calls[d]? := by
  obtain ⟨hlt, -⟩ := List.getElem?_eq_some_iff.mp hk
  rw [QueryDispatch.setCall, List.getElem?_set]
  by_cases hd : d = c
  · subst hd
    simp [hlt]
  · simp [hd, Ne.symm hd]

/-- A call is replaced by one that is as accepted and as ended. -/
theorem setCall (h : Linked s) (hk : s.calls[c]? = some k) {k' : Call R} (hs : k'.Sound)
    (hacc : k'.accepted = k.accepted) (hend : k'.ended = k.ended) : Linked (setCall s c k') where
  sound d kd hd := by
    rw [getElem?_setCall hk] at hd
    split at hd
    · cases hd
      exact hs
    · exact h.sound d kd hd
  nodup := h.nodup
  accepted d := by
    rw [show d ∈ (QueryDispatch.setCall s c k').begun ++
      (QueryDispatch.setCall s c k').queue.items ↔ _ from h.accepted d, getElem?_setCall hk]
    by_cases hd : d = c
    · subst hd
      simp [hk, hacc]
    · simp [hd]
  begun d kd hd hne := by
    rw [getElem?_setCall hk] at hd
    split at hd
    · next heq =>
      cases hd
      exact heq ▸ h.begun c k hk (hend ▸ hne)
    · exact h.begun d kd hd hne
  executing j d hj := by
    obtain ⟨hd, kd, hkd, he⟩ := h.executing j d hj
    refine ⟨hd, ?_⟩
    rw [getElem?_setCall hk]
    by_cases hdc : d = c
    · subst hdc
      refine ⟨k', by simp, ?_⟩
      rw [hend, ← he, Option.some.inj (hk.symm.trans hkd)]
    · exact ⟨kd, by simpa [hdc] using hkd, he⟩
  unique := h.unique

/-- A new call. -/
theorem call (h : Linked s) [Inhabited R] (response : Option R) :
    Linked { s with calls := s.calls ++ [Call.enter response] } := by
  have hget : ∀ (d : ℕ) (kd : Call R), (s.calls ++ [Call.enter response])[d]? = some kd →
      s.calls[d]? = some kd ∨ kd = Call.enter response := by
    intro d kd hd
    rw [List.getElem?_append] at hd
    split at hd
    · exact .inl hd
    · exact .inr (List.mem_singleton.mp (List.mem_of_getElem? hd))
  have hkeep : ∀ (d : ℕ) (kd : Call R), s.calls[d]? = some kd →
      (s.calls ++ [Call.enter response])[d]? = some kd := by
    intro d kd hd
    rw [List.getElem?_append_left (List.getElem?_eq_some_iff.mp hd).1]
    exact hd
  refine ⟨fun d kd hd => ?_, h.nodup, fun d => ?_, fun d kd hd hne => ?_, fun j d hj => ?_,
    h.unique⟩
  · rcases hget d kd hd with hd | rfl
    · exact h.sound d kd hd
    · exact .enter response
  · rw [show d ∈ s.begun ++ s.queue.items ↔ _ from h.accepted d]
    constructor
    · rintro ⟨kd, hd, hacc⟩
      exact ⟨kd, hkeep d kd hd, hacc⟩
    · rintro ⟨kd, hd, hacc⟩
      rcases hget d kd hd with hd | rfl
      · exact ⟨kd, hd, hacc⟩
      · cases hacc
  · rcases hget d kd hd with hd | rfl
    · exact h.begun d kd hd hne
    · exact absurd rfl hne
  · obtain ⟨hd, kd, hkd, he⟩ := h.executing j d hj
    exact ⟨hd, kd, hkeep d kd hkd, he⟩

/-- The queue write of a call succeeds. -/
theorem accept (h : Linked s) (hk : s.calls[c]? = some k) (hpc : k.pc = .writing)
    {q : Fifo ℕ (queueCapacity cfg)} (hq : s.queue.write c = some q) :
    Linked (accept s c k q) := by
  have hitems := Fifo.write_eq_some hq
  -- the call is still writing, so its task is in no place yet
  have hfresh : c ∉ s.begun ++ s.queue.items := by
    rw [h.accepted]
    rintro ⟨k', hk', hacc⟩
    obtain rfl : k = k' := Option.some.inj (hk.symm.trans hk')
    have hno := ((h.sound c k hk).submitting (by rw [hpc]; decide)).1
    rw [hno] at hacc
    cases hacc
  have hset := fun d => getElem?_setCall hk { k with pc := .waiting, accepted := true } d
  refine ⟨fun d kd hd => ?_, ?_, fun d => ?_, fun d kd hd hne => ?_, fun j d hj => ?_, h.unique⟩
  · rw [show (QueryDispatch.accept s c k q).calls[d]? = _ from hset d] at hd
    split at hd
    · cases hd
      exact (h.sound c k hk).accept hpc
    · exact h.sound d kd hd
  · rw [show (QueryDispatch.accept s c k q).queue.items = s.queue.items ++ [c] from hitems,
      ← List.append_assoc]
    refine List.nodup_append.mpr ⟨h.nodup, List.nodup_singleton c, fun a ha b hb hab => ?_⟩
    rw [List.mem_singleton.mp hb] at hab
    exact hfresh (hab ▸ ha)
  · rw [show (QueryDispatch.accept s c k q).queue.items = s.queue.items ++ [c] from hitems,
      show (QueryDispatch.accept s c k q).calls[d]? = _ from hset d, ← List.append_assoc,
      List.mem_append, show d ∈ (QueryDispatch.accept s c k q).begun ++ s.queue.items ↔ _ from
        h.accepted d]
    by_cases hd : d = c
    · simp [hd]
    · simp [hd]
  · rw [show (QueryDispatch.accept s c k q).calls[d]? = _ from hset d] at hd
    split at hd
    · next heq =>
      cases hd
      exact heq ▸ h.begun c k hk hne
    · exact h.begun d kd hd hne
  · obtain ⟨hd, kd, hkd, he⟩ := h.executing j d hj
    refine ⟨hd, ?_⟩
    rw [show (QueryDispatch.accept s c k q).calls[d]? = _ from hset d]
    by_cases hdc : d = c
    · subst hdc
      exact ⟨_, if_pos rfl, Option.some.inj (hk.symm.trans hkd) ▸ he⟩
    · exact ⟨kd, by simpa [hdc] using hkd, he⟩

/-- A worker reads the queue and begins a task, which is new. -/
theorem begin (h : Linked s) {q : Fifo ℕ (queueCapacity cfg)}
    (hq : s.queue.read = some (c, q)) : Linked (begin s i c q) := by
  have hitems := Fifo.read_eq_some hq
  have hlist : (s.begun ++ [c]) ++ q.items = s.begun ++ s.queue.items := by
    rw [hitems, List.append_assoc, List.singleton_append]
  have hfresh : c ∉ s.begun := by
    have hnodup := h.nodup
    rw [hitems] at hnodup
    exact fun hc => List.disjoint_of_nodup_append hnodup hc List.mem_cons_self
  have hworker : ∀ j d : ℕ, (QueryDispatch.begin s i c q).workers[j]? = some (.executing d) →
      j = i ∧ d = c ∨ j ≠ i ∧ s.workers[j]? = some (.executing d) := by
    intro j d hj
    simp only [QueryDispatch.begin, QueryDispatch.setWorker, List.getElem?_set] at hj
    split at hj
    · next heq =>
      split at hj
      · cases hj
        exact .inl ⟨heq.symm, rfl⟩
      · cases hj
    · next hne => exact .inr ⟨Ne.symm hne, hj⟩
  refine ⟨h.sound, ?_, fun d => ?_, fun d kd hd hne => ?_, fun j d hj => ?_,
    fun j₁ j₂ d h₁ h₂ => ?_⟩
  · rw [show (QueryDispatch.begin s i c q).begun ++ (QueryDispatch.begin s i c q).queue.items = _
      from hlist]
    exact h.nodup
  · rw [show (QueryDispatch.begin s i c q).begun ++ (QueryDispatch.begin s i c q).queue.items = _
      from hlist]
    exact h.accepted d
  · exact List.mem_append_left _ (h.begun d kd hd hne)
  · obtain ⟨-, rfl⟩ | ⟨-, hj⟩ := hworker j d hj
    · -- a task that has ended has begun before, and this one is new
      obtain ⟨kd, hkd, -⟩ := (h.accepted d).mp (by simp [hitems])
      refine ⟨List.mem_append_right _ (List.mem_singleton.mpr rfl), kd, hkd, ?_⟩
      by_contra hne
      exact hfresh (h.begun d kd hkd hne)
    · obtain ⟨hd, kd, hkd, he⟩ := h.executing j d hj
      exact ⟨List.mem_append_left _ hd, kd, hkd, he⟩
  · -- the new task runs on no other worker, and the old ones where they ran
    obtain ⟨hj₁, hd₁⟩ | ⟨-, hold₁⟩ := hworker j₁ d h₁ <;>
      obtain ⟨hj₂, hd₂⟩ | ⟨-, hold₂⟩ := hworker j₂ d h₂
    · exact hj₁.trans hj₂.symm
    · exact absurd (h.executing j₂ d hold₂).1 (hd₁ ▸ hfresh)
    · exact absurd (h.executing j₁ d hold₁).1 (hd₂ ▸ hfresh)
    · exact h.unique j₁ j₂ d hold₁ hold₂

/-- The task a worker runs is that of an accepted call, and has not ended. -/
theorem running (h : Linked s) (hi : s.workers[i]? = some (.executing c))
    (hk : s.calls[c]? = some k) : k.ended = none ∧ k.accepted = true ∧ c ∈ s.begun := by
  obtain ⟨hb, k', hk', he⟩ := h.executing i c hi
  obtain rfl : k = k' := Option.some.inj (hk.symm.trans hk')
  obtain ⟨k'', hk'', hacc⟩ := (h.accepted c).mp (List.mem_append_left _ hb)
  obtain rfl : k = k'' := Option.some.inj (hk.symm.trans hk'')
  exact ⟨he, hacc, hb⟩

/-- The task a worker runs ends; no other worker was running it. -/
theorem fulfil (h : Linked s) (hi : s.workers[i]? = some (.executing c))
    (hk : s.calls[c]? = some k) (how : TaskEnd) : Linked (fulfil s i c k how) := by
  obtain ⟨he, hacc, hb⟩ := h.running hi hk
  have hset := fun d => getElem?_setCall hk
    { k with promise := some how.status, ended := some (how, k.result) } d
  have hworker : ∀ j d : ℕ, (QueryDispatch.fulfil s i c k how).workers[j]? = some (.executing d) →
      d ≠ c ∧ s.workers[j]? = some (.executing d) := by
    intro j d hj
    simp only [QueryDispatch.fulfil, QueryDispatch.setWorker, QueryDispatch.setCall,
      List.getElem?_set] at hj
    split at hj
    · split at hj <;> cases hj
    · next hne =>
      refine ⟨?_, hj⟩
      rintro rfl
      exact hne (h.unique i j d hi hj)
  refine ⟨fun d kd hd => ?_, h.nodup, fun d => ?_, fun d kd hd hne => ?_, fun j d hj => ?_,
    fun j₁ j₂ d h₁ h₂ => h.unique j₁ j₂ d (hworker j₁ d h₁).2 (hworker j₂ d h₂).2⟩
  · rw [show (QueryDispatch.fulfil s i c k how).calls[d]? = _ from hset d] at hd
    split at hd
    · cases hd
      exact (h.sound c k hk).fulfil he hacc how
    · exact h.sound d kd hd
  · rw [show (QueryDispatch.fulfil s i c k how).calls[d]? = _ from hset d,
      show d ∈ (QueryDispatch.fulfil s i c k how).begun ++
        (QueryDispatch.fulfil s i c k how).queue.items ↔ _ from h.accepted d]
    by_cases hd : d = c
    · subst hd
      simp [hk]
    · simp [hd]
  · rw [show (QueryDispatch.fulfil s i c k how).calls[d]? = _ from hset d] at hd
    split at hd
    · next heq => exact heq ▸ hb
    · exact h.begun d kd hd hne
  · obtain ⟨hdc, hj⟩ := hworker j d hj
    obtain ⟨hd, kd, hkd, he⟩ := h.executing j d hj
    refine ⟨hd, kd, ?_, he⟩
    rw [show (QueryDispatch.fulfil s i c k how).calls[d]? = _ from hset d, if_neg hdc]
    exact hkd

/-- An action of a call. -/
theorem callStep (h : Linked s) (hk : s.calls[c]? = some k)
    (hs : callStep cfg s c k = some s') : Linked s' := by
  have hsound := h.sound c k hk
  obtain ⟨pc, hw, rfl⟩ | ⟨cur, hpc, rfl⟩ | ⟨hpc, rfl⟩ | ⟨hrank, -, rfl⟩ | ⟨q, hpc, hq, rfl⟩ |
    ⟨status, hpc, hp, rfl⟩ := callStep_cases hs
  · have hold : 2 ≤ k.pc.rank := hw.submitting.trans hw.closer.le
    exact h.setCall hk (hsound.move hold pc hw.submitting) rfl rfl
  · have hold : 2 ≤ k.pc.rank := by simp [hpc, CallPc.rank]
    have hnew : 2 ≤ (CallPc.spawnEmplace cur).rank := by simp [CallPc.rank]
    exact (h.setCall hk (hsound.move hold _ hnew) rfl rfl).frame rfl rfl rfl fun _ _ => id
  · have hold : 2 ≤ k.pc.rank := by simp [CallPc.rank_of_emplacing hpc]
    refine (h.setCall hk (hsound.move hold .capacityTest (by decide)) rfl rfl).frame
      rfl rfl rfl fun j d hj => ?_
    -- the new thread runs no task yet
    simp only [emplaceWorker, QueryDispatch.setCall, List.getElem?_append] at hj
    split at hj
    · exact hj
    · cases List.mem_singleton.mp (List.mem_of_getElem? hj)
  · exact (h.setCall hk (hsound.reject hrank) rfl rfl).frame rfl rfl rfl fun _ _ => id
  · exact h.accept hk hpc hq
  · refine h.setCall hk (hsound.finish hpc hp) ?_ ?_ <;> unfold Call.finish <;> split <;> rfl

/-- An action of a worker. -/
theorem workStep (h : Linked s) {pc : WorkerPc} (hs : workStep cfg s i pc = some s') :
    Linked s' := by
  obtain ⟨-, rfl⟩ | ⟨-, rfl⟩ | ⟨-, rfl⟩ | ⟨c, q, -, hq, rfl⟩ | ⟨-, rfl⟩ := workStep_cases hs
  · refine h.setWorker _ fun c => ?_
    split <;> simp
  · refine h.setWorker _ fun c => ?_
    split <;> simp
  · exact h.setWorker .idle (by simp)
  · exact h.begin hq
  · exact (h.setWorker .exited (by simp)).frame rfl rfl rfl fun _ _ => id

/-- **Every action keeps the calls, the queue and the workers linked.** -/
theorem step [Inhabited R] (h : Linked s) {a : Action R} (hs : step cfg s a = some s') :
    Linked s' := by
  cases a with
  | call response =>
    obtain rfl := step_call hs
    exact h.call response
  | advance c =>
    obtain ⟨k, hk, hs⟩ := step_advance hs
    exact h.callStep hk hs
  | timeout c =>
    obtain ⟨k, hk, hpc, -, rfl⟩ := step_timeout hs
    exact (h.setCall hk ((h.sound c k hk).expire hpc) rfl rfl).frame rfl rfl rfl fun _ _ => id
  | work i =>
    obtain ⟨pc, -, hs⟩ := step_work hs
    exact h.workStep hs
  | idle i expired =>
    obtain ⟨-, rfl⟩ := step_idle hs
    refine h.setWorker _ fun c => ?_
    split <;> simp
  | produce i r =>
    obtain ⟨c, k, hi, hk, rfl⟩ := step_produce hs
    exact h.setCall hk ((h.sound c k hk).produce (h.running hi hk).1 r) rfl rfl
  | complete i how =>
    obtain ⟨c, k, hi, hk, rfl⟩ := step_complete hs
    exact h.fulfil hi hk how
  | stopExchange =>
    obtain rfl := step_stopExchange hs
    exact h.frame rfl rfl rfl fun _ _ => id

end Linked

/-! ### What an action does to the calls -/

section Frame

variable {s s' : State R (queueCapacity cfg)} {c d : ℕ} {k kd : Call R}

/-- What an action other than its own may do to a call: its place and the caller's
response stay. -/
structure Call.Unaffected (k k' : Call R) : Prop where
  pc : k'.pc = k.pc
  initial : k'.initial = k.initial
  response : k'.response = k.response

/-- What an action of its own does to a call: it comes closer to its return. -/
structure Call.Advanced (k k' : Call R) : Prop where
  closer : k'.pc.rank < k.pc.rank
  initial : k'.initial = k.initial

theorem Call.Unaffected.refl (k : Call R) : k.Unaffected k := ⟨rfl, rfl, rfl⟩

/-- Replacing one call leaves the others alone. -/
theorem getElem?_of_setCall (hk : s.calls[c]? = some k) (hd : s.calls[d]? = some kd)
    (k' : Call R) : ∃ kd', (setCall s c k').calls[d]? = some kd' ∧
      (d ≠ c ∧ kd' = kd ∨ d = c ∧ kd = k ∧ kd' = k') := by
  rw [Linked.getElem?_setCall hk]
  by_cases hdc : d = c
  · subst hdc
    exact ⟨k', if_pos rfl, .inr ⟨rfl, Option.some.inj (hd.symm.trans hk), rfl⟩⟩
  · exact ⟨kd, by simpa [hdc] using hd, .inl ⟨hdc, rfl⟩⟩

/-- An action of a call brings it closer to its return and leaves the other calls
alone. -/
theorem calls_callStep (hk : s.calls[c]? = some k) (hs : callStep cfg s c k = some s')
    (hd : s.calls[d]? = some kd) : ∃ kd', s'.calls[d]? = some kd' ∧
      (d ≠ c ∧ kd' = kd ∨ d = c ∧ kd.Advanced kd') := by
  have hset : ∀ k', k.Advanced k' → ∃ kd', (setCall s c k').calls[d]? = some kd' ∧
      (d ≠ c ∧ kd' = kd ∨ d = c ∧ kd.Advanced kd') := by
    intro k' hk'
    obtain ⟨kd', hkd', ⟨hne, rfl⟩ | ⟨rfl, rfl, rfl⟩⟩ := getElem?_of_setCall hk hd k'
    · exact ⟨_, hkd', .inl ⟨hne, rfl⟩⟩
    · exact ⟨_, hkd', .inr ⟨rfl, hk'⟩⟩
  obtain ⟨pc, hw, rfl⟩ | ⟨cur, hpc, rfl⟩ | ⟨hpc, rfl⟩ | ⟨hrank, -, rfl⟩ | ⟨q, hpc, hq, rfl⟩ |
    ⟨status, hpc, hp, rfl⟩ := callStep_cases hs
  · exact hset _ ⟨hw.closer, rfl⟩
  · exact hset { k with pc := .spawnEmplace cur } ⟨by simp [hpc, CallPc.rank], rfl⟩
  · refine hset { k with pc := .capacityTest } ⟨?_, rfl⟩
    rw [CallPc.rank_of_emplacing hpc]
    simp [CallPc.rank]
  · exact hset { k with pc := .returned queueFull } ⟨by rw [CallPc.rank]; omega, rfl⟩
  · exact hset { k with pc := .waiting, accepted := true } ⟨by simp [hpc, CallPc.rank], rfl⟩
  · refine hset (k.finish status) ?_
    unfold Call.finish
    split <;> exact ⟨by simp [hpc, CallPc.rank], rfl⟩

/-- The actions of call `d` itself. -/
def Action.IsOwn (d : ℕ) (a : Action R) : Prop := a = .advance d ∨ a = .timeout d

/-- **Only its own actions touch a call's response**: whatever another call, a worker
or a task does – a task that ends after its caller has given up included – leaves
every caller's response as it is. -/
theorem calls_step [Inhabited R] {a : Action R} (hs : step cfg s a = some s')
    (hd : s.calls[d]? = some kd) : ∃ kd', s'.calls[d]? = some kd' ∧
      (¬a.IsOwn d ∧ kd.Unaffected kd' ∨ a.IsOwn d ∧ kd.Advanced kd') := by
  have hsame : s'.calls = s.calls → ¬a.IsOwn d → ∃ kd', s'.calls[d]? = some kd' ∧
      (¬a.IsOwn d ∧ kd.Unaffected kd' ∨ a.IsOwn d ∧ kd.Advanced kd') := by
    intro hcalls hown
    exact ⟨kd, by rw [hcalls]; exact hd, .inl ⟨hown, .refl kd⟩⟩
  cases a with
  | call response =>
    obtain rfl := step_call hs
    refine ⟨kd, ?_, .inl ⟨by simp [Action.IsOwn], .refl kd⟩⟩
    rw [List.getElem?_append_left (List.getElem?_eq_some_iff.mp hd).1]
    exact hd
  | advance c =>
    obtain ⟨k, hk, hs⟩ := step_advance hs
    obtain ⟨kd', hkd', ⟨hne, rfl⟩ | ⟨rfl, hadv⟩⟩ := calls_callStep hk hs hd
    · exact ⟨_, hkd', .inl ⟨by simpa [Action.IsOwn] using hne.symm, .refl _⟩⟩
    · exact ⟨kd', hkd', .inr ⟨.inl rfl, hadv⟩⟩
  | timeout c =>
    obtain ⟨k, hk, hpc, -, rfl⟩ := step_timeout hs
    obtain ⟨kd', hkd', ⟨hne, rfl⟩ | ⟨rfl, rfl, rfl⟩⟩ := getElem?_of_setCall hk hd
      { k with pc := .returned timedOutStatus, timedOut := true }
    · exact ⟨_, hkd', .inl ⟨by simpa [Action.IsOwn] using hne.symm, .refl _⟩⟩
    · exact ⟨_, hkd', .inr ⟨.inr rfl, by simp [hpc, CallPc.rank], rfl⟩⟩
  | work i =>
    obtain ⟨pc, -, hs⟩ := step_work hs
    obtain ⟨-, rfl⟩ | ⟨-, rfl⟩ | ⟨-, rfl⟩ | ⟨c, q, -, -, rfl⟩ | ⟨-, rfl⟩ :=
      workStep_cases hs <;> exact hsame rfl (by simp [Action.IsOwn])
  | idle i expired =>
    obtain ⟨-, rfl⟩ := step_idle hs
    exact hsame rfl (by simp [Action.IsOwn])
  | produce i r =>
    obtain ⟨c, k, -, hk, rfl⟩ := step_produce hs
    refine (getElem?_of_setCall hk hd { k with result := r }).imp fun kd' h =>
      ⟨h.1, .inl ⟨by simp [Action.IsOwn], ?_⟩⟩
    obtain ⟨-, rfl⟩ | ⟨rfl, rfl, rfl⟩ := h.2 <;> exact ⟨rfl, rfl, rfl⟩
  | complete i how =>
    obtain ⟨c, k, -, hk, rfl⟩ := step_complete hs
    refine (getElem?_of_setCall hk hd
      { k with promise := some how.status, ended := some (how, k.result) }).imp fun kd' h =>
        ⟨h.1, .inl ⟨by simp [Action.IsOwn], ?_⟩⟩
    obtain ⟨-, rfl⟩ | ⟨rfl, rfl, rfl⟩ := h.2 <;> exact ⟨rfl, rfl, rfl⟩
  | stopExchange =>
    obtain rfl := step_stopExchange hs
    exact hsame rfl (by simp [Action.IsOwn])

theorem callStep_enabled (hpc : 2 ≤ k.pc.rank) : ∃ t, callStep cfg s c k = some t := by
  unfold callStep
  cases hp : k.pc with
  | capacityTest =>
    simp only
    split <;> exact ⟨_, rfl⟩
  | runningTest =>
    simp only
    split <;> exact ⟨_, rfl⟩
  | writing =>
    simp only
    split <;> exact ⟨_, rfl⟩
  | waiting => simp [hp, CallPc.rank] at hpc
  | returned status => simp [hp, CallPc.rank] at hpc
  | _ => exact ⟨_, rfl⟩

/-- **A call that has not returned can always move**: no lock, queue or worker holds
it up, and its wait is bounded. -/
theorem own_action_enabled [Inhabited R] (hk : s.calls[c]? = some k) (hpc : k.pc.rank ≠ 0) :
    ∃ a t, Action.IsOwn c a ∧ step cfg s a = some t := by
  by_cases hsub : 2 ≤ k.pc.rank
  · obtain ⟨t, ht⟩ := callStep_enabled (s := s) (c := c) hsub
    exact ⟨.advance c, t, .inl rfl, by simpa [step, hk] using ht⟩
  · have hp : k.pc = .waiting := CallPc.rank_eq_one_iff.mp (by omega)
    -- either the promise is fulfilled or the wait times out
    cases hprom : k.promise with
    | none => exact ⟨.timeout c, expire s c k, .inr rfl, by simp [step, hk, hp, hprom]⟩
    | some status =>
      exact ⟨.advance c, setCall s c (k.finish status), .inl rfl,
        by simp [step, hk, callStep, hp, hprom]⟩

/-- **A call returns**, within as many actions of its own as it has left to do,
whatever the workers do. -/
theorem call_returns [Inhabited R] (hk : s.calls[c]? = some k) :
    ∃ bs t k' status, (∀ a ∈ bs, Action.IsOwn c a) ∧ bs.length ≤ k.pc.rank ∧
      Runs.run (step cfg) s bs = some t ∧ t.calls[c]? = some k' ∧ k'.pc = .returned status := by
  -- by induction on what the call has left to do, which each of its own actions makes less
  induction hn : k.pc.rank using Nat.strong_induction_on generalizing s k with
  | _ n ih =>
    by_cases hpc : k.pc.rank = 0
    · obtain ⟨status, hst⟩ := CallPc.rank_eq_zero_iff.mp hpc
      exact ⟨[], s, k, status, by simp, by simp, rfl, hk, hst⟩
    · obtain ⟨a, u, ha, hu⟩ := own_action_enabled hk hpc
      obtain ⟨ku, hku, ⟨hown, -⟩ | ⟨-, hadv⟩⟩ := calls_step hu hk
      · exact absurd ha hown
      · obtain ⟨bs, t, k', status, hbs, hlen, hrun, hk', hst⟩ :=
          ih ku.pc.rank (hn ▸ hadv.closer) hku rfl
        refine ⟨a :: bs, t, k', status, ?_, ?_, Runs.run_cons_iff.mpr ⟨u, hu, hrun⟩, hk', hst⟩
        · intro b hb
          rcases List.mem_cons.mp hb with rfl | hb
          · exact ha
          · exact hbs b hb
        · have := hadv.closer
          simp only [List.length_cons]
          omega

end Frame

/-! ### The contract -/

/-- **What `submitQueryTask` promises**, of a call `k` (number `c`) with a non-null
response in a state `s`. -/
structure Contract [Inhabited R] (s : State R (queueCapacity cfg)) (c : ℕ) (k : Call R) :
    Prop where
  /-- The status is that of the one outcome the call has had, and a task that was
  rejected never runs. -/
  outcome : ∀ status, k.pc = .returned status →
    ∃ o, k.outcome = some o ∧ o.status = status ∧ (o = .rejected → c ∉ s.begun)
  /-- The response is modified if and only if the status is OK. -/
  modified_iff : k.assigned = true ↔ ∃ status, k.pc = .returned status ∧ status.ok = true
  /-- With an OK status, the response is what the task of this call produced. -/
  produced : ∀ status, k.pc = .returned status → status.ok = true →
    ∃ r, k.ended = some (.returned status, r) ∧ k.response = some r
  /-- Otherwise the response is what it was. -/
  unmodified : k.assigned = false → k.response = k.initial
  /-- No action but its own ever touches any call's response: not the end of a task
  whose caller has given up. -/
  untouched : ∀ a s', step cfg s a = some s' → ∀ (d : ℕ) (kd : Call R), s.calls[d]? = some kd →
    ∃ kd', s'.calls[d]? = some kd' ∧
      (¬a.IsOwn d ∧ kd.Unaffected kd' ∨ a.IsOwn d ∧ kd.Advanced kd')
  /-- The call returns within ten actions of its own. -/
  returns : ∃ bs t k' status, (∀ a ∈ bs, Action.IsOwn c a) ∧ bs.length ≤ 10 ∧
    Runs.run (step cfg) s bs = some t ∧ t.calls[c]? = some k' ∧ k'.pc = .returned status

/-- **The contract of a query call holds in every state of every run**, for every
behaviour of the tasks, every occupancy of the queue and every interleaving of the
calls with the workers. -/
theorem query_contract [Inhabited R] (acts : List (Action R)) {s : State R (queueCapacity cfg)}
    (hr : Runs.run (step cfg) (start cfg) acts = some s) {c : ℕ} {k : Call R}
    (hk : s.calls[c]? = some k) (hinit : k.initial.isSome) : Contract s c k := by
  have h : Linked s := Runs.run_invariant (fun _ _ _ h hs => h.step hs) .start hr
  have hsound := h.sound c k hk
  refine ⟨fun status hpc => ?_, ?_, fun status hpc hok => ?_, fun hno => ?_,
    fun a s' hs d kd hd => calls_step hs hd, ?_⟩
  · obtain ⟨o, ho, hst⟩ := hsound.returned status hpc hinit
    refine ⟨o, ho, hst, ?_⟩
    -- a task that has begun belongs to an accepted call, which is not a rejected one
    rintro rfl hmem
    obtain ⟨k', hk', hacc⟩ := (h.accepted c).mp (List.mem_append_left _ hmem)
    obtain rfl : k = k' := Option.some.inj (hk.symm.trans hk')
    cases hto : k.timedOut <;> simp [Call.outcome, hacc, hto] at ho
  · constructor
    · intro hyes
      by_contra hnone
      have hun := hsound.unassigned fun status hpc => by
        by_contra hok
        exact hnone ⟨status, hpc, by simpa using hok⟩
      rw [hun.1] at hyes
      cases hyes
    · rintro ⟨status, hpc, hok⟩
      exact (hsound.assigned status hpc hok).1
  · exact (hsound.assigned status hpc hok).2
  · refine (hsound.unassigned fun status hpc => ?_).2
    by_contra hok
    have hyes := (hsound.assigned status hpc (by simpa using hok)).1
    rw [hno] at hyes
    cases hyes
  · obtain ⟨bs, t, k', status, hown, hlen, hrun, hk', hst⟩ := call_returns (s := s) hk
    exact ⟨bs, t, k', status, hown, hlen.trans k.pc.rank_le, hrun, hk', hst⟩

/-- A dispatcher with one query worker. -/
def oneWorker : ManagerConfig := { queryThreadsMin := 1, queryThreadsMax := 1 }

/-- One call whose task ends after its caller has given up. -/
def lateRun : List (Action ℕ) :=
  [.call (some 0), .advance 0, .advance 0, .advance 0, .work 0, .work 0, .produce 0 7,
    .timeout 0, .complete 0 (.returned .OK)]

theorem query_contract_lateRun : ∃ s k,
    Runs.run (step oneWorker) (start oneWorker) lateRun = some s ∧
    s.calls[0]? = some k ∧ k.ended = some (.returned .OK, 7) ∧
    k.pc = .returned timedOutStatus ∧ k.response = some 0 ∧ Contract s 0 k :=
  ⟨_, _, rfl, rfl, rfl, rfl, rfl, query_contract lateRun rfl rfl rfl⟩

end QueryDispatch

end MonitorSystem
