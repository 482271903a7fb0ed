import MonitorSystem.Manager.Ingest

/-!
# Shutting the ingest side down

`stop` clears `running_` and joins the workers, and a worker leaves its loop only
when it has seen the flag cleared and, after that, its queue empty. So a task that
is in the queue when the flag is cleared is run before `stop` returns.

A `submitMonitorTask` call, however, tests the flag and writes the queue in two
actions. If its test comes before the flag is cleared and its write after the
worker of the shard has left, the call returns `true` and nobody will ever run the
task (`Ingest.accepted_lost_at_stop`). This is the only way to lose a task:
`Ingest.accepted_executed_iff` says that a run in which `stop` has returned has
executed every accepted task exactly when no write of it came that late.
-/

namespace MonitorSystem

namespace Ingest

variable {ρ : Type} {cfg : ManagerConfig} {hash : String → ℕ}
  {s s' : State ρ (shardCapacity cfg)} {a : Action ρ} {acts : List (Action ρ)}

/-! ### Writes that come before the worker has left -/

/-- The condition on a queue write under which shutdown loses nothing: the worker of
the shard has not left its loop. -/
def WritesBeforeExit (cfg : ManagerConfig) (hash : String → ℕ)
    (s : State ρ (shardCapacity cfg)) : Action ρ → Prop
  | .write c => ∀ key run, s.submit c = .loaded key run →
      s.worker (shardIndexFor cfg hash key) ≠ .exited
  | _ => True

/-- A worker that has left its loop left an empty queue behind. -/
def Drained (s : State ρ (shardCapacity cfg)) : Prop :=
  ∀ i, s.worker i = .exited → (s.queue i).items = []

theorem drained_init : Drained (init cfg : State ρ (shardCapacity cfg)) :=
  fun i h => by simp [init] at h

theorem Drained.move (h : Drained s) {i : ℕ} {pc : WorkerPc ρ}
    (hpc : pc = .exited → (s.queue i).items = [])
    (hw : s'.worker = Function.update s.worker i pc) (hq : s'.queue = s.queue) :
    Drained s' := by
  intro j hj
  rw [hq]
  rcases eq_or_ne j i with rfl | hji
  · rw [hw, Function.update_self] at hj
    exact hpc hj
  · rw [hw, Function.update_of_ne hji] at hj
    exact h j hj

/-- **A step that writes no abandoned queue keeps the abandoned queues empty.** -/
theorem Drained.step (h : Drained s) (hG : WritesBeforeExit cfg hash s a)
    (hs : Ingest.step cfg hash s a = some s') : Drained s' := by
  cases a with
  | startExchange =>
    obtain ⟨-, rfl⟩ := step_startExchange hs
    exact h
  | spawn =>
    obtain ⟨k, -, -, rfl⟩ := step_spawn hs
    exact h.move (by simp) rfl rfl
  | startReturn =>
    obtain ⟨-, rfl⟩ := step_startReturn hs
    exact h
  | enter c key run =>
    obtain ⟨-, rfl⟩ := step_enter hs
    exact h
  | load c =>
    obtain ⟨key, run, -, rfl | rfl⟩ := step_load hs <;> exact h
  | write c =>
    obtain ⟨key, run, hc, ⟨q, -, rfl⟩ | ⟨-, rfl⟩⟩ := step_write hs
    · -- the written queue is not an abandoned one: its worker is still in its loop
      intro j hj
      have hne : j ≠ shardIndexFor cfg hash key := fun he => hG key run hc (he ▸ hj)
      simpa [accept, hne] using h j hj
    · exact h
  | testRunning i =>
    obtain ⟨-, rfl⟩ := step_testRunning hs
    refine h.move (fun hpc => ?_) rfl rfl
    split at hpc <;> simp at hpc
  | testSize i =>
    obtain ⟨-, rfl⟩ := step_testSize hs
    refine h.move (fun hpc => ?_) rfl rfl
    -- a worker leaves only when it has found its queue empty
    split at hpc
    · simp at hpc
    · next hsize => simpa [Fifo.size] using hsize
  | read i =>
    obtain ⟨-, ⟨t, q, -, rfl⟩ | rfl⟩ := step_read hs
    · intro j hj
      rcases eq_or_ne j i with rfl | hji
      · simp [Ingest.begin] at hj
      · simpa [Ingest.begin, hji] using h j (by simpa [Ingest.begin, hji] using hj)
    · exact h.move (by simp) rfl rfl
  | finish i how =>
    obtain ⟨t, -, rfl⟩ := step_finish hs
    exact h.move (by simp) rfl rfl
  | stopExchange =>
    obtain ⟨-, rfl⟩ := step_stopExchange hs
    exact h
  | join =>
    obtain ⟨k, -, -, rfl⟩ := step_join hs
    exact h
  | stopReturn =>
    obtain ⟨-, rfl⟩ := step_stopReturn hs
    exact h

/-! ### A task nobody will run -/

/-- Some queue whose worker has left its loop still holds a task. -/
def Abandoned (s : State ρ (shardCapacity cfg)) : Prop :=
  ∃ i t, s.worker i = .exited ∧ t ∈ (s.queue i).items

/-- A worker other than the one that has left moves. -/
theorem Abandoned.move (h : Abandoned s) {i : ℕ} {pc : WorkerPc ρ}
    (hin : s.worker i ≠ .exited) (hw : s'.worker = Function.update s.worker i pc)
    (hq : ∀ j, j ≠ i → s'.queue j = s.queue j) : Abandoned s' := by
  obtain ⟨j, t, hj, ht⟩ := h
  have hji : j ≠ i := fun he => hin (he ▸ hj)
  refine ⟨j, t, ?_, ?_⟩
  · rw [hw, Function.update_of_ne hji, hj]
  · rw [hq j hji]
    exact ht

/-- **An abandoned task stays abandoned**: its worker is gone for good. -/
theorem Abandoned.step (h : Abandoned s) (hl : Lifecycle s)
    (hs : Ingest.step cfg hash s a = some s') : Abandoned s' := by
  cases a with
  | startExchange =>
    obtain ⟨-, rfl⟩ := step_startExchange hs
    exact h
  | spawn =>
    obtain ⟨k, ho, -, rfl⟩ := step_spawn hs
    -- the worker that is born has not left before
    have hu : s.worker k = .unborn := hl.unborn k (by rw [ho]; exact le_rfl)
    exact h.move (by simp [hu]) rfl fun _ _ => rfl
  | startReturn =>
    obtain ⟨-, rfl⟩ := step_startReturn hs
    exact h
  | enter c key run =>
    obtain ⟨-, rfl⟩ := step_enter hs
    exact h
  | load c =>
    obtain ⟨key, run, -, rfl | rfl⟩ := step_load hs <;> exact h
  | write c =>
    obtain ⟨key, run, -, ⟨q, hq, rfl⟩ | ⟨-, rfl⟩⟩ := step_write hs
    · obtain ⟨j, t, hj, ht⟩ := h
      refine ⟨j, t, hj, ?_⟩
      rcases eq_or_ne j (shardIndexFor cfg hash key) with rfl | hne
      · simp [accept, Fifo.write_eq_some hq, ht]
      · simpa [accept, hne] using ht
    · exact h
  | testRunning i =>
    obtain ⟨hw, rfl⟩ := step_testRunning hs
    exact h.move (by simp [hw]) rfl fun _ _ => rfl
  | testSize i =>
    obtain ⟨hw, rfl⟩ := step_testSize hs
    exact h.move (by simp [hw]) rfl fun _ _ => rfl
  | read i =>
    obtain ⟨hw, ⟨t, q, -, rfl⟩ | rfl⟩ := step_read hs
    · exact h.move (by simp [hw]) rfl fun j hj => by simp [Ingest.begin, hj]
    · exact h.move (by simp [hw]) rfl fun _ _ => rfl
  | finish i how =>
    obtain ⟨t, hw, rfl⟩ := step_finish hs
    exact h.move (by simp [hw]) rfl fun _ _ => rfl
  | stopExchange =>
    obtain ⟨-, rfl⟩ := step_stopExchange hs
    exact h
  | join =>
    obtain ⟨k, -, -, rfl⟩ := step_join hs
    exact h
  | stopReturn =>
    obtain ⟨-, rfl⟩ := step_stopReturn hs
    exact h

/-- A write that comes too late succeeds: the queue it finds is empty. -/
theorem abandoned_of_late_write (hd : Drained s) (hG : ¬WritesBeforeExit cfg hash s a)
    (hs : Ingest.step cfg hash s a = some s') : Abandoned s' := by
  cases a with
  | write c =>
    simp only [WritesBeforeExit, not_forall, not_not] at hG
    obtain ⟨key, run, hc, hx⟩ := hG
    obtain ⟨q, hq, hitems⟩ := Fifo.write_isSome (a := (⟨c, key, run⟩ : Task ρ))
      (q := s.queue (shardIndexFor cfg hash key))
      (by rw [hd _ hx]; exact shardCapacity_pos cfg)
    simp only [Ingest.step, hc, hq, Option.some.injEq] at hs
    subst hs
    exact ⟨_, ⟨c, key, run⟩, hx, by simp [accept, hitems]⟩
  | _ => exact absurd trivial hG

/-- **Every run either writes in time or abandons a task.** -/
theorem along_or_abandoned (hl : Lifecycle s) (hd : Drained s)
    (hr : Runs.run (Ingest.step cfg hash) s acts = some s') :
    Runs.Along (Ingest.step cfg hash) (WritesBeforeExit cfg hash) s acts ∨ Abandoned s' :=
  Runs.along_or_marked (fun _ _ _ h hs => h.step hs) (fun _ _ _ _ h hG hs => h.step hG hs)
    (fun _ _ _ _ h hG hs => abandoned_of_late_write h hG hs) (fun _ _ _ hl h hs => h.step hl hs)
    hl hd hr

/-- A queued task has not been begun. -/
theorem not_mem_ended_of_queued (h : Histories cfg hash s) {i : ℕ} {t u : Task ρ}
    (ht : t ∈ (s.queue i).items) (hu : u ∈ s.ended) : u.call ≠ t.call := by
  intro hcall
  have hon := h.onShard_of_queued ht
  have hub := h.begun_of_ended hu
  -- the two accepted tasks of one call are the same task, begun and queued at once
  obtain rfl : u = t := List.inj_on_of_nodup_map h.distinct (h.accepted_of_begun hub)
    (h.accepted_of_queued ht) hcall
  have hnodup : (s.accepted.filter (onShard cfg hash i)).Nodup := h.distinct.of_map.filter _
  rw [h.queued i] at hnodup
  exact List.disjoint_of_nodup_append hnodup (List.mem_filter.mpr ⟨hub, hon⟩) ht

/-! ### Accepted and executed -/

/-- Every call that has returned `true` has had its task run to its end. -/
def AcceptedExecuted (s : State ρ (shardCapacity cfg)) : Prop :=
  ∀ c, s.submit c = .returned true → ∃ t ∈ s.ended, t.call = c

/-- A call that returned `false` has not had its task begun. -/
def RejectedUnexecuted (s : State ρ (shardCapacity cfg)) : Prop :=
  ∀ c, s.submit c = .returned false → ∀ t ∈ s.begun, t.call ≠ c

theorem Histories.rejectedUnexecuted (h : Histories cfg hash s) : RejectedUnexecuted s := by
  rintro c hc t ht rfl
  have hret := (h.returned t.call).mpr ⟨t, h.accepted_of_begun ht, rfl⟩
  rw [hc] at hret
  cases hret

/-- Once `stop` has returned, nothing that was written in time is left. -/
theorem acceptedExecuted_of_drained (hl : Lifecycle s) (h : Histories cfg hash s)
    (hd : Drained s) (hstop : s.owner = .stopped) : AcceptedExecuted s := by
  intro c hc
  obtain ⟨t, ht, rfl⟩ := (h.returned c).mp hc
  have hx : s.worker (shardIndexFor cfg hash t.partitionKey) = .exited :=
    hl.joined _ (by rw [hstop]; exact shardIndexFor_lt cfg hash t.partitionKey)
  have hmem : t ∈ s.accepted.filter
      (onShard cfg hash (shardIndexFor cfg hash t.partitionKey)) :=
    List.mem_filter.mpr ⟨ht, by simp [onShard]⟩
  rw [h.queued, hd _ hx, h.running, hx] at hmem
  simp only [WorkerPc.current, List.append_nil] at hmem
  exact ⟨t, List.mem_of_mem_filter hmem, rfl⟩

/-- **Accepted means executed, exactly when no write comes too late.** In a run in
which `stop` has returned, every accepted task has been executed if and only if
every queue write found the worker of its shard still in its loop; and, in every
run, no task of a call that returned `false` is executed. -/
theorem accepted_executed_iff
    (hr : Runs.run (Ingest.step cfg hash) (Ingest.init cfg) acts = some s) :
    (s.owner = .stopped →
      (AcceptedExecuted s ↔
        Runs.Along (Ingest.step cfg hash) (WritesBeforeExit cfg hash) (Ingest.init cfg) acts)) ∧
    RejectedUnexecuted s := by
  obtain ⟨hl, hh⟩ := run_invariants hr
  refine ⟨fun hstop => ⟨fun hex => ?_, fun hG => ?_⟩, hh.rejectedUnexecuted⟩
  · rcases along_or_abandoned Lifecycle.init drained_init hr with h | ⟨i, t, hx, ht⟩
    · exact h
    · have hret := (hh.returned t.call).mpr ⟨t, hh.accepted_of_queued ht, rfl⟩
      obtain ⟨u, hu, hcall⟩ := hex t.call hret
      exact absurd hcall (not_mem_ended_of_queued hh ht hu)
  · have hd := Runs.run_invariant_along (fun _ _ _ h hg hs => Drained.step h hg hs)
      drained_init hG hr
    exact acceptedExecuted_of_drained hl hh hd hstop

/-- A dispatcher with one shard whose queue holds one task. -/
def oneShard : ManagerConfig := { ingestShardCount := 1, ingestQueueCapacityPerShard := 1 }

/-- A run that starts the dispatcher, submits and executes one task, and stops. -/
def orderlyRun : List (Action Unit) :=
  [.startExchange, .spawn, .startReturn, .enter 0 "host" (), .load 0, .write 0,
    .testRunning 0, .read 0, .finish 0 .returned, .stopExchange, .testRunning 0, .testSize 0,
    .join, .stopReturn]

theorem accepted_executed_iff_orderlyRun :
    ∃ s, Runs.run (Ingest.step oneShard fun _ => 0) (Ingest.init oneShard) orderlyRun = some s ∧
      s.owner = .stopped ∧ AcceptedExecuted s ∧ RejectedUnexecuted s ∧
      Runs.Along (Ingest.step oneShard fun _ => 0) (WritesBeforeExit oneShard fun _ => 0)
        (Ingest.init oneShard) orderlyRun := by
  refine ⟨_, rfl, rfl, ?hex, (@accepted_executed_iff Unit oneShard (fun _ => 0) _ orderlyRun rfl).2,
    ((@accepted_executed_iff Unit oneShard (fun _ => 0) _ orderlyRun rfl).1 rfl).mp ?hex⟩
  intro c hc
  rcases eq_or_ne c 0 with rfl | hne
  · exact ⟨⟨0, "host", ()⟩, by decide, rfl⟩
  · simp [Ingest.init, moveOwner, moveWorker, moveCall, accept, begin, finish, hne] at hc

/-- **A task accepted during shutdown may never run**: the call loads `running_`
before `stop` clears it, and writes the queue after the worker has left. -/
theorem accepted_lost_at_stop :
    ∃ s, Runs.run (Ingest.step oneShard fun _ => 0) (Ingest.init oneShard)
        [.startExchange, .spawn, .startReturn, .enter 0 "host" (), .load 0, .stopExchange,
          .testRunning 0, .testSize 0, .write 0, .join, .stopReturn] = some s ∧
      s.owner = .stopped ∧ s.submit 0 = .returned true ∧ s.begun = [] ∧ s.ended = [] ∧
      ¬AcceptedExecuted s := by
  refine ⟨_, rfl, rfl, rfl, rfl, rfl, fun h => ?_⟩
  obtain ⟨t, ht, -⟩ := h 0 rfl
  cases ht

end Ingest

end MonitorSystem
