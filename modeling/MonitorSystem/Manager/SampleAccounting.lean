import MonitorSystem.Manager.SampleFlow

/-!
# Where the samples end

On its way through the manager (`SampleFlow`) a sample is dropped at four places that count it
in `dropped_monitor_samples`: where the dispatcher rejects it, where its worker has no scope,
where the write queue evicts it, and in `writeToMysql` where its record has no scope.
`writeToMysql` also gives up without counting it: when the pool has no connection in time, and
when the INSERT fails.

The balance is drawn in three parts, each an invariant of every run: from a call to the
callback (`Front`), from the callback to the writers (`Middle`), and from the writers to the
rows (`Settled`). `SampleAccounting.taken_eq_iff` is the result: once everything has drained,
the pushes that were taken are the rows and the counted drops together, if and only if every
write of the run got its connection and its INSERT succeeded.
-/

namespace MonitorSystem

/-! ### The balance of the dispatcher -/

namespace Ingest

variable {ρ : Type} {cfg : ManagerConfig} {hash : String → ℕ} {s s' : State ρ (shardCapacity cfg)}

/-- The call that an action makes. -/
def Action.entered : Action ρ → List ℕ
  | .enter c _ _ => [c]
  | _ => []

/-- **Every call is rejected and counted, accepted, or under way.** -/
structure Balanced (calls : List ℕ) (s : State ρ (shardCapacity cfg)) : Prop where
  nodup : calls.Nodup
  made : ∀ c, c ∈ calls ↔ s.submit c ≠ .idle
  count : calls.length = s.metrics.droppedMonitorSamples + s.accepted.length +
    calls.countP fun c => (s.submit c).pending.isSome

namespace Balanced

variable {calls : List ℕ}

theorem init : Balanced [] (Ingest.init cfg : State ρ (shardCapacity cfg)) :=
  ⟨List.nodup_nil, fun c => by simp [Ingest.init], rfl⟩

theorem frame (h : Balanced calls s) (hc : s'.submit = s.submit) (ha : s'.accepted = s.accepted)
    (hm : s'.metrics.droppedMonitorSamples = s.metrics.droppedMonitorSamples) :
    Balanced calls s' :=
  ⟨h.nodup, hc ▸ h.made, by rw [hc, ha, hm]; exact h.count⟩

theorem enter (h : Balanced calls s) {c : ℕ} (hc : s.submit c = .idle) (key : String) (run : ρ) :
    Balanced (calls ++ [c]) (moveCall s c (.entered key run)) := by
  have hnew : c ∉ calls := fun hmem => (h.made c).mp hmem hc
  refine ⟨List.Nodup.append h.nodup (List.nodup_singleton c) (by simpa using hnew), fun d => ?_, ?_⟩
  · by_cases hd : d = c
    · subst hd
      simp [moveCall]
    · simp [moveCall, hd, h.made d]
  · have hold : (calls.countP fun d =>
        (Function.update s.submit c (.entered key run) d).pending.isSome) =
        calls.countP fun d => (s.submit d).pending.isSome :=
      List.countP_congr fun d hd => by
        rw [Function.update_of_ne (ne_of_mem_of_not_mem hd hnew)]
    have hentered : (SubmitPc.entered key run).pending.isSome = true := rfl
    have := h.count
    simp only [moveCall, List.length_append, List.length_singleton, List.countP_append,
      List.countP_singleton, Function.update_self, hentered, if_true]
    rw [hold]
    omega

/-- A call that is under way goes on or returns. -/
theorem move (h : Balanced calls s) {c : ℕ} {pc : SubmitPc ρ}
    (hc : (s.submit c).pending.isSome = true) (hpc : pc ≠ .idle)
    (hsubmit : s'.submit = Function.update s.submit c pc)
    (hcount : s'.metrics.droppedMonitorSamples + s'.accepted.length +
        (if pc.pending.isSome then 1 else 0) =
      s.metrics.droppedMonitorSamples + s.accepted.length + 1) : Balanced calls s' := by
  have hmem : c ∈ calls := (h.made c).mpr fun hidle => by rw [hidle] at hc; cases hc
  refine ⟨h.nodup, fun d => ?_, ?_⟩
  · rw [hsubmit]
    by_cases hd : d = c
    · subst hd
      simpa using ⟨fun _ => hpc, fun _ => hmem⟩
    · rw [Function.update_of_ne hd]
      exact h.made d
  · have hupdate := Lists.countP_update_add pc (fun pc => pc.pending.isSome) h.nodup hmem
      (f := s.submit)
    have := h.count
    rw [hc, if_pos rfl] at hupdate
    rw [hsubmit]
    omega

/-- **Every action of the dispatcher keeps the balance.** -/
theorem step (h : Balanced calls s) {a : Action ρ} (hs : Ingest.step cfg hash s a = some s') :
    Balanced (calls ++ a.entered) s' := by
  have hrest : ∀ {s' : State ρ (shardCapacity cfg)}, Balanced calls s' →
      Balanced (calls ++ []) s' := fun h => (List.append_nil calls).symm ▸ h
  cases a with
  | startExchange =>
    obtain ⟨-, rfl⟩ := step_startExchange hs
    exact hrest (h.frame rfl rfl rfl)
  | spawn =>
    obtain ⟨k, -, -, rfl⟩ := step_spawn hs
    exact hrest (h.frame rfl rfl rfl)
  | startReturn =>
    obtain ⟨-, rfl⟩ := step_startReturn hs
    exact hrest (h.frame rfl rfl rfl)
  | enter c key run =>
    obtain ⟨hc, rfl⟩ := step_enter hs
    exact h.enter hc key run
  | load c =>
    obtain ⟨key, run, hc, rfl | rfl⟩ := step_load hs
    · exact hrest (h.move (by rw [hc]; rfl) (by simp) rfl rfl)
    · exact hrest (h.move (by rw [hc]; rfl) (by simp) rfl
        (by simp [reject, SubmitPc.pending]; omega))
  | write c =>
    obtain ⟨key, run, hc, ⟨q, -, rfl⟩ | ⟨-, rfl⟩⟩ := step_write hs
    · exact hrest (h.move (by rw [hc]; rfl) (by simp) rfl
        (by simp [accept, SubmitPc.pending]; omega))
    · exact hrest (h.move (by rw [hc]; rfl) (by simp) rfl
        (by simp [reject, SubmitPc.pending]; omega))
  | testRunning i =>
    obtain ⟨-, rfl⟩ := step_testRunning hs
    exact hrest (h.frame rfl rfl rfl)
  | testSize i =>
    obtain ⟨-, rfl⟩ := step_testSize hs
    exact hrest (h.frame rfl rfl rfl)
  | read i =>
    obtain ⟨-, ⟨t, q, -, rfl⟩ | rfl⟩ := step_read hs <;> exact hrest (h.frame rfl rfl rfl)
  | finish i how =>
    obtain ⟨t, -, rfl⟩ := step_finish hs
    exact hrest (h.frame rfl rfl rfl)
  | stopExchange =>
    obtain ⟨-, rfl⟩ := step_stopExchange hs
    exact hrest (h.frame rfl rfl rfl)
  | join =>
    obtain ⟨k, -, -, rfl⟩ := step_join hs
    exact hrest (h.frame rfl rfl rfl)
  | stopReturn =>
    obtain ⟨-, rfl⟩ := step_stopReturn hs
    exact hrest (h.frame rfl rfl rfl)

end Balanced

/-- What has ended changes with a task that ends. -/
theorem ended_of_step {a : Action ρ} (ha : ∀ i how, a ≠ .finish i how)
    (hs : step cfg hash s a = some s') : s'.ended = s.ended := by
  cases a with
  | startExchange => exact (step_startExchange hs).2 ▸ rfl
  | spawn =>
    obtain ⟨k, -, -, rfl⟩ := step_spawn hs
    rfl
  | startReturn => exact (step_startReturn hs).2 ▸ rfl
  | enter c key run => exact (step_enter hs).2 ▸ rfl
  | load c => obtain ⟨key, run, -, rfl | rfl⟩ := step_load hs <;> rfl
  | write c => obtain ⟨key, run, -, ⟨q, -, rfl⟩ | ⟨-, rfl⟩⟩ := step_write hs <;> rfl
  | testRunning i => exact (step_testRunning hs).2 ▸ rfl
  | testSize i => exact (step_testSize hs).2 ▸ rfl
  | read i => obtain ⟨-, ⟨t, q, -, rfl⟩ | rfl⟩ := step_read hs <;> rfl
  | finish i how => exact absurd rfl (ha i how)
  | stopExchange => exact (step_stopExchange hs).2 ▸ rfl
  | join =>
    obtain ⟨k, -, -, rfl⟩ := step_join hs
    rfl
  | stopReturn => exact (step_stopReturn hs).2 ▸ rfl

/-- When nothing is queued and no worker has a task, all that was accepted has ended. -/
theorem Histories.ended_perm [DecidableEq ρ] (h : Histories cfg hash s)
    (hq : ∀ i, (s.queue i).items = []) (hw : ∀ i, (s.worker i).current = []) :
    s.accepted.Perm s.ended := by
  refine List.perm_iff_count.mpr fun t => ?_
  have hshard : onShard cfg hash (shardIndexFor cfg hash t.partitionKey) t = true := by
    simp [onShard]
  rw [← List.count_filter hshard, h.queued, h.running, hq, hw, List.append_nil, List.append_nil,
    List.count_filter hshard]

end Ingest

namespace SampleAccounting

open MysqlWriter

/-! ### From a call to the callback -/

/-- The callback has received a push that names its host. -/
def Receives {m : Setup} (s s' : State m) : Prop :=
  ∃ (push : Push) (row : Option Registration) (now : ℤ), push.info.hostID ≠ "" ∧
    s'.host = (onDataReceived s push row now).host ∧
    s'.writes = (onDataReceived s push row now).writes ∧ s'.received = s.received + 1 ∧
    s'.rows = s.rows ∧ s'.metrics = s.metrics

/-- **Every push that is taken is rejected, in the dispatcher, waiting for its callback, or
received.** -/
structure Front {m : Setup} (s : State m) : Prop where
  callback : s.server.hasCallback = true
  lifecycle : Ingest.Lifecycle s.ingest
  histories : Ingest.Histories m.cfg m.hash s.ingest
  carries : Ingest.Carries (fun _ push => push.info.hostID ≠ "") s.ingest
  named : ∀ push ∈ s.direct, push.info.hostID ≠ ""
  balanced : Ingest.Balanced s.calls s.ingest
  flow : s.taken + s.ingest.ended.length = s.calls.length + s.direct.length + s.received

namespace Front

variable {m : Setup} {s s' : State m}

theorem start : Front (start m) where
  callback := rfl
  lifecycle := .init
  histories := .init
  carries := .init
  named _ h := by cases h
  balanced := .init
  flow := rfl

/-- Only the front of the manager matters. -/
theorem frame (h : Front s) (hserver : s'.server = s.server) (hingest : s'.ingest = s.ingest)
    (hdirect : s'.direct = s.direct) (hcalls : s'.calls = s.calls) (htaken : s'.taken = s.taken)
    (hreceived : s'.received = s.received) : Front s' where
  callback := hserver ▸ h.callback
  lifecycle := hingest ▸ h.lifecycle
  histories := hingest ▸ h.histories
  carries := hingest ▸ h.carries
  named := hdirect ▸ h.named
  balanced := hcalls ▸ hingest ▸ h.balanced
  flow := by rw [htaken, hingest, hcalls, hdirect, hreceived]; exact h.flow

/-- A step of the dispatcher, and what it means for the rest. -/
theorem dispatch (h : Front s) {a : Ingest.Action Push}
    (hP : Ingest.Submits (fun _ push => push.info.hostID ≠ "") a)
    (hs : Ingest.step m.cfg m.hash s.ingest a = some s'.ingest)
    (hserver : s'.server.hasCallback = true) (hcalls : s'.calls = s.calls ++ a.entered)
    (hdirect : s'.direct = s.direct)
    (hflow : s'.taken + s'.ingest.ended.length =
      s'.calls.length + s'.direct.length + s'.received) : Front s' where
  callback := hserver
  lifecycle := h.lifecycle.step hs
  histories := h.histories.step h.lifecycle hs
  carries := h.carries.step hP hs
  named := hdirect ▸ h.named
  balanced := hcalls ▸ h.balanced.step hs
  flow := hflow

theorem call (h : Front s) {c : ℕ} {metadata : List (String × String)}
    {request : Option MonitorInfo} {now : ℤ}
    (hs : step m s (.call c metadata request now) = some s') : Front s' := by
  have hflow := h.flow
  obtain ⟨server, hserver, rfl | ⟨push, hid, ⟨key, ingest, hi, rfl⟩ | rfl⟩⟩ :=
    step_call h.callback hs
  · exact ⟨hserver, h.lifecycle, h.histories, h.carries, h.named, h.balanced, h.flow⟩
  · refine h.dispatch (a := .enter c key push) hid hi hserver rfl rfl ?_
    have hended := Ingest.ended_of_step (by simp) hi
    simp only [hended, List.length_append, List.length_singleton]
    omega
  · refine ⟨hserver, h.lifecycle, h.histories, h.carries, ?_, h.balanced, ?_⟩
    · simp only [List.mem_append, List.mem_singleton]
      rintro x (hx | rfl)
      · exact h.named x hx
      · exact hid
    · simp only [List.length_append, List.length_singleton]
      omega

theorem ingest (h : Front s) {a : Ingest.Action Push}
    (hs : SampleAccounting.step m s (.ingest a) = some s') : Front s' := by
  obtain ⟨ha, ingest, hi, rfl⟩ := step_ingest hs
  have hP : Ingest.Submits (fun _ push => push.info.hostID ≠ "") a := by
    cases a <;> first | exact trivial | cases ha
  have hentered : a.entered = [] := by
    cases a <;> first | rfl | cases ha
  have hended := Ingest.ended_of_step (by rintro i how rfl; cases ha) hi
  refine h.dispatch hP hi h.callback (by rw [hentered, List.append_nil]) rfl ?_
  simp only [hended]
  exact h.flow

theorem receive (h : Front s) {i : ℕ} {row : Option Registration} {now : ℤ}
    (hs : SampleAccounting.step m s (.receive i row now) = some s') :
    Front s' ∧ Receives s s' := by
  obtain ⟨t, ingest, ht, hi, rfl⟩ := step_receive hs
  obtain ⟨t', ht', rfl⟩ := Ingest.step_finish hi
  have hid : t.run.info.hostID ≠ "" := h.carries.accepted t
    (h.histories.accepted_of_begun (h.histories.begun_of_executing ht))
  refine ⟨h.dispatch (a := .finish i .returned) trivial hi h.callback (List.append_nil _).symm rfl
    ?_, t.run, row, now, hid, rfl, rfl, rfl, rfl, rfl⟩
  have hflow := h.flow
  simp only [onDataReceived, Ingest.finish, List.length_append, List.length_singleton]
  omega

theorem receiveDirect (h : Front s) {n : ℕ} {row : Option Registration} {now : ℤ}
    (hs : SampleAccounting.step m s (.receiveDirect n row now) = some s') :
    Front s' ∧ Receives s s' := by
  obtain ⟨push, hpush, rfl⟩ := step_receiveDirect hs
  obtain ⟨hn, -⟩ := List.getElem?_eq_some_iff.mp hpush
  refine ⟨⟨h.callback, h.lifecycle, h.histories, h.carries, fun x hx => ?_, h.balanced, ?_⟩,
    push, row, now, h.named push (List.mem_of_getElem? hpush), rfl, rfl, rfl, rfl, rfl⟩
  · exact h.named x (List.mem_of_mem_eraseIdx hx)
  · have hflow := h.flow
    have hlength := List.length_eraseIdx_add_one hn
    simp only [onDataReceived]
    omega

end Front

/-! ### From the callback to the writers -/

/-- **Every push that is received is a counted drop or a record of the write queue**, and
records have a scope. -/
structure Middle {m : Setup} (s : State m) : Prop where
  received : s.received = s.host.metrics.droppedMonitorSamples + s.writes.enqueued.length
  queue : WriteQueue.Accounted s.writes
  others : s.writes.otherDrops = 0
  complete : ∀ x ∈ s.writes.enqueued, m.hasPool = true ∧ ¬ Unscoped x.data
  writing : ∀ x, .writing x ∈ s.writes.writers → x ∈ s.writes.written

/-- Whether a writer is in `writeToMysql`. -/
def isWriting : WriteQueue.WriterPc HostMonitoringData → Bool
  | .writing _ => true
  | _ => false

/-- **Every record that is passed to `writeToMysql` is a row, a counted drop, under way, or one
of `lost` ones.** -/
def Settled {m : Setup} (lost : ℕ) (s : State m) : Prop :=
  s.writes.written.length = s.rows.length + s.metrics.droppedMonitorSamples +
    s.writes.writers.countP isWriting + lost

namespace Middle

variable {m : Setup} {s s' : State m} {lost : ℕ}

theorem start : Middle (start m) where
  received := rfl
  queue := .start
  others := rfl
  complete _ h := by cases h
  writing x h := by simp [SampleAccounting.start, WriteQueue.start] at h

theorem frame (h : Middle s) (hhost : s'.host = s.host) (hwrites : s'.writes = s.writes)
    (hreceived : s'.received = s.received) : Middle s' where
  received := by rw [hreceived, hhost, hwrites]; exact h.received
  queue := hwrites ▸ h.queue
  others := hwrites ▸ h.others
  complete := hwrites ▸ h.complete
  writing := hwrites ▸ h.writing

theorem receives (h : Middle s) (hr : Receives s s') : Middle s' := by
  obtain ⟨push, row, now, hid, hhost, hwrites, hreceived, -, -⟩ := hr
  have hold := h.received
  obtain ⟨hnone, hdropped⟩ | ⟨data, hdata, hscope, hrow, hdropped⟩ :=
    onDataReceived_cases m.platform s.host hid push.identity (if m.hasPool then row else none) now
  · have hsame : s'.writes = s.writes := by
      rw [hwrites, onDataReceived, hnone]
    have hcount : s'.host.metrics.droppedMonitorSamples =
        s.host.metrics.droppedMonitorSamples + 1 :=
      (congrArg (·.metrics.droppedMonitorSamples) hhost).trans hdropped
    refine ⟨?_, hsame ▸ h.queue, hsame ▸ h.others, hsame ▸ h.complete, hsame ▸ h.writing⟩
    rw [hreceived, hcount, hsame]
    omega
  · have hsome : s'.writes = WriteQueue.enqueueMysqlWrite s.writes data := by
      rw [hwrites, onDataReceived, hdata]
    have hcount : s'.host.metrics.droppedMonitorSamples = s.host.metrics.droppedMonitorSamples :=
      (congrArg (·.metrics.droppedMonitorSamples) hhost).trans hdropped
    refine ⟨?_, hsome ▸ h.queue.enqueue data, hsome ▸ h.others, fun x hx => ?_, hsome ▸ h.writing⟩
    · rw [hreceived, hcount, hsome]
      simp only [WriteQueue.enqueueMysqlWrite, List.length_append, List.length_singleton]
      omega
    · rw [hsome] at hx
      rcases List.mem_append.mp hx with hx | hx
      · exact h.complete x hx
      · obtain rfl := List.mem_singleton.mp hx
        exact ⟨by by_contra hpool; simp [hpool] at hrow, hscope⟩

/-- The writers that are in `writeToMysql` when one of them moves. -/
theorem mem_writers_of_set {i : ℕ} {pc : WriteQueue.WriterPc HostMonitoringData}
    (hpc : isWriting pc = false) {x : WriteQueue.Sample HostMonitoringData}
    (h : .writing x ∈ s.writes.writers.set i pc) : .writing x ∈ s.writes.writers := by
  rcases List.mem_or_eq_of_mem_set h with hmem | rfl
  · exact hmem
  · cases hpc

/-- A writer moves between places outside `writeToMysql`. -/
theorem countP_set {i : ℕ} {pc : WriteQueue.WriterPc HostMonitoringData}
    (hi : s.writes.writers[i]? = some pc) (pc' : WriteQueue.WriterPc HostMonitoringData)
    (hpc : isWriting pc = isWriting pc') :
    (s.writes.writers.set i pc').countP isWriting = s.writes.writers.countP isWriting := by
  have := Lists.countP_set_add (p := isWriting) pc' hi
  rw [hpc] at this
  omega

theorem iterate (h : Middle s) (hb : Settled lost s) {i : ℕ}
    (hs : queueStep s (.iterate i) = some s') : Middle s' ∧ Settled lost s' := by
  obtain ⟨writes, hw, rfl⟩ := queueStep_eq_some hs
  have hqueue := h.queue.step hw
  obtain ⟨hi, ⟨x, q, -, rfl⟩ | ⟨-, rfl⟩ | ⟨-, -, rfl⟩⟩ := WriteQueue.step_iterate hw
  · exact ⟨⟨h.received, hqueue, h.others, h.complete,
      fun y hy => h.writing y (mem_writers_of_set rfl hy)⟩,
      hb.trans (by rw [← countP_set hi (.holding x) rfl]; rfl)⟩
  · exact ⟨h, hb⟩
  · exact ⟨⟨h.received, hqueue, h.others, h.complete,
      fun y hy => h.writing y (mem_writers_of_set rfl hy)⟩,
      hb.trans (by rw [← countP_set hi .returned rfl]; rfl)⟩

theorem acquire (h : Middle s) (hb : Settled lost s) {i : ℕ}
    (hs : queueStep s (.acquire i) = some s') : Middle s' ∧ Settled lost s' := by
  obtain ⟨writes, hw, rfl⟩ := queueStep_eq_some hs
  have hqueue := h.queue.step hw
  obtain ⟨x, hi, -, rfl⟩ := WriteQueue.step_acquire hw
  refine ⟨⟨h.received, hqueue, h.others, h.complete, fun y hy => ?_⟩, ?_⟩
  · simp only [WriteQueue.passToWrite, WriteQueue.moveWriter] at hy ⊢
    rcases List.mem_or_eq_of_mem_set hy with hmem | heq
    · exact List.mem_append_left _ (h.writing y hmem)
    · cases heq
      exact List.mem_append_right _ (List.mem_singleton_self _)
  · have hcount := Lists.countP_set_add (p := isWriting) (.writing x) hi
    simp only [Settled, WriteQueue.passToWrite, WriteQueue.moveWriter, List.length_append,
      List.length_singleton, isWriting, Bool.false_eq_true, if_false, if_true] at hb hcount ⊢
    omega

theorem stop (h : Middle s) (hb : Settled lost s) (hs : queueStep s .stop = some s') :
    Middle s' ∧ Settled lost s' := by
  obtain ⟨writes, hw, rfl⟩ := queueStep_eq_some hs
  have hqueue := h.queue.step hw
  obtain rfl := Option.some.inj hw
  exact ⟨⟨h.received, hqueue, h.others, h.complete, h.writing⟩, hb⟩

/-- **A write that lands is a row, and any other one is lost.** -/
theorem release (h : Middle s) (hb : Settled lost s) {i : ℕ} {outcome : WriteOutcome}
    (hs : step m s (.release i outcome) = some s') :
    Middle s' ∧ Settled (lost + if outcome = .inserted then 0 else 1) s' := by
  obtain ⟨x, writes, hi, hw, rfl⟩ := step_release hs
  have hqueue := h.queue.step hw
  obtain ⟨x', hi', rfl⟩ := WriteQueue.step_release hw
  -- a record that is written has been enqueued, so it has a scope and there is a pool
  obtain ⟨hpool, hscope⟩ := h.complete x (h.queue.enqueued_perm.mem_iff.mpr (by
    simp only [List.mem_append]
    exact .inl (.inl (.inl (h.writing x (List.mem_of_getElem? hi))))))
  have hmiddle : Middle { s with writes :=
      { WriteQueue.moveWriter s.writes i .waiting with writeLocked := false } } :=
    ⟨h.received, hqueue, h.others, h.complete, fun y hy => h.writing y (mem_writers_of_set rfl hy)⟩
  have hcount := Lists.countP_set_add (p := isWriting) .waiting hi
  simp only [isWriting, Bool.false_eq_true, if_false, if_true] at hcount
  have hpool' : ¬ m.hasPool = false := by simp [hpool]
  cases outcome with
  | timeout =>
    have heq : ∀ t : State m, writeToMysql t x.data .timeout = { t with metrics :=
        { t.metrics with poolTimeouts := t.metrics.poolTimeouts + 1 } } := fun t => by
      rw [writeToMysql, if_neg hpool', if_pos rfl]
    rw [heq]
    refine ⟨hmiddle.frame rfl rfl rfl, ?_⟩
    simp only [Settled, WriteQueue.moveWriter, reduceCtorEq, if_false] at hb ⊢
    omega
  | failed =>
    have heq : ∀ t : State m, writeToMysql t x.data .failed =
        { t with last := (MysqlWriter.writeToMysql m.platform t.last x.data).1 } := fun t => by
      rw [writeToMysql, if_neg hpool', if_neg (by simp), if_neg hscope]
      simp
    rw [heq]
    refine ⟨hmiddle.frame rfl rfl rfl, ?_⟩
    simp only [Settled, WriteQueue.moveWriter, reduceCtorEq, if_false] at hb ⊢
    omega
  | inserted =>
    have heq : ∀ t : State m, writeToMysql t x.data .inserted =
        { t with
          last := (MysqlWriter.writeToMysql m.platform t.last x.data).1
          rows := t.rows ++
            [performanceInsert m.platform x.data (t.last.lastDiskUtil x.data.hostName)] } :=
      fun t => by
        rw [writeToMysql, if_neg hpool', if_neg (by simp), if_neg hscope]
        simp only [if_true, performanceRows_writeToMysql m.platform t.last hscope]
    rw [heq]
    refine ⟨hmiddle.frame rfl rfl rfl, ?_⟩
    simp only [Settled, WriteQueue.moveWriter, if_true, List.length_append,
      List.length_singleton] at hb ⊢
    omega

end Middle

/-! ### The balance -/

/-- The writes that do not land: the pool has no connection, or the INSERT fails. -/
def Action.loses : Action → Bool
  | .release _ outcome => outcome ≠ .inserted
  | _ => false

section Balance

variable {m : Setup} {s s' : State m}

/-- **One step**: the front and the middle are kept, and what is lost is what the step loses. -/
theorem step_balance {lost : ℕ} {a : Action} (hf : Front s) (hm : Middle s) (hb : Settled lost s)
    (hs : step m s a = some s') :
    Front s' ∧ Middle s' ∧ Settled (lost + if a.loses then 1 else 0) s' := by
  -- a step that leaves the back of the manager alone
  have hfront : s'.host = s.host → s'.writes = s.writes → s'.received = s.received →
      s'.rows = s.rows → s'.metrics = s.metrics → Middle s' ∧ Settled lost s' := by
    intro hhost hwrites hreceived hrows hmetrics
    exact ⟨hm.frame hhost hwrites hreceived, by rw [Settled, hwrites, hrows, hmetrics]; exact hb⟩
  -- a callback adds to the queue, which is not behind it yet
  have hback : Receives s s' → Middle s' ∧ Settled lost s' := by
    intro hr
    refine ⟨hm.receives hr, ?_⟩
    obtain ⟨push, row, now, -, -, hwrites, -, hrows, hmetrics⟩ := hr
    rw [Settled, hrows, hmetrics, hwrites]
    unfold onDataReceived
    dsimp only
    split <;> exact hb
  cases a with
  | call c metadata request now =>
    obtain ⟨server, -, rfl | ⟨push, -, ⟨key, ingest, -, rfl⟩ | rfl⟩⟩ := step_call hf.callback hs <;>
      exact ⟨hf.call hs, hfront rfl rfl rfl rfl rfl⟩
  | ingest a =>
    have hfront' := hf.ingest hs
    obtain ⟨-, ingest, -, rfl⟩ := step_ingest hs
    exact ⟨hfront', hfront rfl rfl rfl rfl rfl⟩
  | receive i row now => exact ⟨(hf.receive hs).1, hback (hf.receive hs).2⟩
  | receiveDirect n row now => exact ⟨(hf.receiveDirect hs).1, hback (hf.receiveDirect hs).2⟩
  | iterate i =>
    obtain ⟨writes, -, rfl⟩ := queueStep_eq_some hs
    exact ⟨hf.frame rfl rfl rfl rfl rfl rfl, hm.iterate hb hs⟩
  | acquire i =>
    obtain ⟨writes, -, rfl⟩ := queueStep_eq_some hs
    exact ⟨hf.frame rfl rfl rfl rfl rfl rfl, hm.acquire hb hs⟩
  | release i outcome =>
    refine ⟨?_, ?_⟩
    · obtain ⟨x, writes, -, -, rfl⟩ := step_release hs
      unfold writeToMysql
      split
      · exact hf.frame rfl rfl rfl rfl rfl rfl
      · split
        · exact hf.frame rfl rfl rfl rfl rfl rfl
        · split <;> exact hf.frame rfl rfl rfl rfl rfl rfl
    · have := hm.release hb hs
      cases outcome <;> exact this
  | stop =>
    obtain ⟨writes, -, rfl⟩ := queueStep_eq_some hs
    exact ⟨hf.frame rfl rfl rfl rfl rfl rfl, hm.stop hb hs⟩

/-- **A whole run**: what is lost are the writes that did not land. -/
theorem run_balance {acts : List Action} (hr : Runs.run (step m) (start m) acts = some s) :
    Front s ∧ Middle s ∧ Settled (acts.countP Action.loses) s := by
  have hstart : Settled 0 (start m) := by
    simp [Settled, start, WriteQueue.start, isWriting, List.countP_replicate]
  have := Runs.run_counted (K := Action.loses)
    (P := fun lost s => Front s ∧ Middle s ∧ Settled lost s)
    (fun _ _ _ _ h hs => step_balance h.1 h.2.1 h.2.2 hs) ⟨.start, .start, hstart⟩ hr
  rwa [Nat.zero_add] at this

/-- **Once everything has drained, a push is a row, a counted drop or a lost write.** -/
theorem taken_eq {acts : List Action} (hr : Runs.run (step m) (start m) acts = some s)
    (hd : s.Drained) :
    s.taken = s.rows.length + s.droppedMonitorSamples + acts.countP Action.loses := by
  obtain ⟨hf, hm, hb⟩ := run_balance hr
  have hcalls := hf.balanced.count
  have hpending : (s.calls.countP fun c => (s.ingest.submit c).pending.isSome) = 0 :=
    List.countP_eq_zero.mpr fun c _ => by simp [hd.calls c]
  have hended := (hf.histories.ended_perm hd.tasks hd.workers).length_eq
  have hflow := hf.flow
  rw [hd.direct, List.length_nil] at hflow
  have hreceived := hm.received
  -- no writer holds a record, and none is in `writeToMysql`
  have hheld : WriteQueue.held s.writes = [] := List.flatMap_eq_nil_iff.mpr fun pc hpc => by
    rcases hd.writers pc hpc with rfl | rfl <;> rfl
  have hwriting : s.writes.writers.countP isWriting = 0 := List.countP_eq_zero.mpr fun pc hpc => by
    rcases hd.writers pc hpc with rfl | rfl <;> simp [isWriting]
  have hqueue := hm.queue.enqueued_perm.length_eq
  rw [hheld, hd.records, List.append_nil, List.append_nil, List.length_append] at hqueue
  have hevicted := hm.queue.dropped
  rw [hm.others] at hevicted
  rw [Settled, hwriting] at hb
  unfold State.droppedMonitorSamples
  omega

end Balance

/-- **When no sample is lost uncounted.** In every run – any configuration, any interleaving of
the calls, the dispatcher, the callbacks and the writers, any occupancy of the queues, and
whatever the registry, the pool and the database answer – once everything has drained, the
pushes that passed the checks of `SetMonitorInfo` are the inserted rows and the counted drops
together, if and only if every write of the run got its connection and its INSERT succeeded. -/
theorem taken_eq_iff (m : Setup) (acts : List Action) (s : State m)
    (hr : Runs.run (step m) (start m) acts = some s) (hd : s.Drained) :
    s.taken = s.rows.length + s.droppedMonitorSamples ↔
      ∀ i outcome, .release i outcome ∈ acts → outcome = .inserted := by
  have hcount := taken_eq hr hd
  have hloses : acts.countP Action.loses = 0 ↔
      ∀ i outcome, .release i outcome ∈ acts → outcome = .inserted := by
    rw [List.countP_eq_zero]
    constructor
    · intro h i outcome hmem
      simpa [Action.loses] using h _ hmem
    · intro h a ha
      cases a with
      | release i outcome => simp [Action.loses, h i outcome ha]
      | _ => simp [Action.loses]
  rw [← hloses]
  omega

/-- A manager with a dispatcher of one shard and one writer. -/
def smallManager : Setup where
  cfg := { ingestShardCount := 1, ingestQueueCapacityPerShard := 1, mysqlWritePoolMax := 1 }
  hash _ := 0
  platform := .exact
  hasDispatcher := true
  hasPool := true

/-- One push of a registered worker, up to the end of its write. -/
def onePush (outcome : WriteOutcome) : List Action :=
  [.ingest .startExchange, .ingest .spawn, .ingest .startReturn,
    .call 0 [("x-monitor-worker-id", "worker-1")] (some { name := "web-01" }) 0,
    .ingest (.load 0), .ingest (.write 0), .ingest (.testRunning 0), .ingest (.read 0),
    .receive 0 (some ⟨some "acme", some "ops", some "prod", 0, none⟩) 0,
    .iterate 0, .acquire 0, .release 0 outcome]

theorem run_onePush (outcome : WriteOutcome) : ∃ s,
    Runs.run (step smallManager) (start smallManager) (onePush outcome) = some s ∧ s.Drained ∧
      s.taken = 1 ∧ s.rows.length = (if outcome = .inserted then 1 else 0) ∧
      s.droppedMonitorSamples = 0 := by
  cases outcome <;> refine ⟨_, rfl, ⟨?_, ?_, ?_, rfl, rfl, ?_⟩, rfl, rfl, rfl⟩
  all_goals first
    | (rintro (_ | c) <;> rfl)
    | exact fun pc hpc => .inl (List.mem_singleton.mp hpc)

/-- **A write without a connection, or with a failed INSERT, is counted nowhere.** The push is
taken and everything has drained, but there is neither a row nor a counted drop. -/
theorem lost_write_uncounted :
    (∃ s, Runs.run (step smallManager) (start smallManager) (onePush .timeout) = some s ∧
      s.Drained ∧ s.taken = 1 ∧ s.rows.length = 0 ∧ s.droppedMonitorSamples = 0) ∧
    ∃ s, Runs.run (step smallManager) (start smallManager) (onePush .failed) = some s ∧
      s.Drained ∧ s.taken = 1 ∧ s.rows.length = 0 ∧ s.droppedMonitorSamples = 0 :=
  ⟨run_onePush .timeout, run_onePush .failed⟩

/-- With a connection and a successful INSERT the push is a row. -/
theorem taken_eq_iff_onePush : ∃ s,
    Runs.run (step smallManager) (start smallManager) (onePush .inserted) = some s ∧ s.Drained ∧
      s.taken = s.rows.length + s.droppedMonitorSamples := by
  obtain ⟨s, hr, hd, -⟩ := run_onePush .inserted
  refine ⟨s, hr, hd, (taken_eq_iff smallManager _ s hr hd).mpr fun i outcome h => ?_⟩
  have hlast : i = 0 ∧ outcome = .inserted := by simpa [onePush] using h
  exact hlast.2

end SampleAccounting

end MonitorSystem
