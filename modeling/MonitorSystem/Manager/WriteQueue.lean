import MonitorSystem.Library.Fifo
import MonitorSystem.Library.Lists
import MonitorSystem.Library.Runs
import MonitorSystem.Manager.Basic
import Mathlib.Data.List.Perm.Basic
import Mathlib.Data.List.Nodup
import Mathlib.Data.List.Range

/-!
# The queue in front of the database writers

`HostManager` hands every accepted sample to `enqueueMysqlWrite`, which puts it into
a bounded queue and drops the oldest sample when there is no room; a pool of writers,
all running `mysqlWriteLoop`, takes the samples out again and passes them to
`writeToMysql` (`manager/src/HostManager.cpp`). Two mutexes are involved: the one of
the queue, under which a writer pops, and the one under which it writes. Between the
two a writer holds a sample in its hands.

The critical sections of the two mutexes are the atomic actions of this model. A wait
on the condition variable may end because of a notification, a spurious wake-up or the
time limit of 100 ms; what a writer then does depends only on what it finds, so one
label covers all three.

A sample is named by the position at which it was enqueued. `WriteQueue.conservation`
says that nothing is lost or duplicated: a sample is queued, held by a writer, passed
to `writeToMysql` or evicted, exactly one of these and only once, an evicted sample is
the oldest one queued and is counted, and what was enqueued before `stop` is not in
the queue when the writers have returned.
-/

namespace MonitorSystem

namespace WriteQueue

variable {δ : Type}

/-- An enqueued sample and the position at which it was enqueued. -/
structure Sample (δ : Type) where
  seq : ℕ
  data : δ
  deriving DecidableEq, Repr

/-- Where a writer stands. -/
inductive WriterPc (δ : Type) where
  /-- At the top of the loop: taking the queue's mutex, or waiting to. -/
  | waiting
  /-- Has popped a sample and waits for the write mutex. -/
  | holding (x : Sample δ)
  /-- In `writeToMysql`, with the write mutex. -/
  | writing (x : Sample δ)
  /-- Returned from `mysqlWriteLoop`. -/
  | returned
  deriving DecidableEq, Repr

/-- The capacity of the queue: at least one, whatever is configured. -/
def capacity (cfg : ManagerConfig) : ℕ := max 1 cfg.taskQueueCapacity

theorem capacity_pos (cfg : ManagerConfig) : 0 < capacity cfg := by
  unfold capacity
  omega

/-- The number of writers `start` creates: at least one, whatever is configured. -/
def writerThreads (cfg : ManagerConfig) : ℕ := (max 1 cfg.mysqlWritePoolMax).toNat

theorem writerThreads_pos (cfg : ManagerConfig) : 0 < writerThreads cfg := by
  unfold writerThreads
  omega

/-- The state of the queue and its writers. -/
structure State (δ : Type) (cap : ℕ) where
  running : Bool
  queue : Fifo (Sample δ) cap
  /-- The write mutex is taken. -/
  writeLocked : Bool
  writers : List (WriterPc δ)
  metrics : ManagerMetrics
  /-- The samples `enqueueMysqlWrite` was called with, in order. -/
  enqueued : List (Sample δ)
  /-- The samples dropped to make room, in order. -/
  evicted : List (Sample δ)
  /-- The samples `writeToMysql` was called with, in order. -/
  written : List (Sample δ)
  /-- How many samples had been enqueued when `running_` was cleared. -/
  early : Option ℕ
  /-- How many samples other parts of the manager have counted as dropped. -/
  otherDrops : ℕ

/-- The labels. -/
inductive Action (δ : Type) where
  /-- `enqueueMysqlWrite`. -/
  | enqueue (data : δ)
  /-- Writer `i` comes out of its wait and looks at the queue. -/
  | iterate (i : ℕ)
  /-- Writer `i` takes the write mutex and calls `writeToMysql`. -/
  | acquire (i : ℕ)
  /-- `writeToMysql` returns to writer `i`, which gives the mutex back. -/
  | release (i : ℕ)
  /-- `stop`: `running_` is cleared. -/
  | stop
  /-- Another part of the manager counts a dropped sample. -/
  | drop
  deriving DecidableEq, Repr

section Step

variable (cfg : ManagerConfig)

/-- The queue and its writers as `start` leaves them. -/
def start : State δ (capacity cfg) where
  running := true
  queue := .empty
  writeLocked := false
  writers := List.replicate (writerThreads cfg) .waiting
  metrics := {}
  enqueued := []
  evicted := []
  written := []
  early := none
  otherDrops := 0

variable {cfg} in
/-- `enqueueMysqlWrite`. -/
def enqueueMysqlWrite (s : State δ (capacity cfg)) (data : δ) : State δ (capacity cfg) :=
  { s with
    queue := s.queue.pushEvicting (capacity_pos cfg) ⟨s.enqueued.length, data⟩
    metrics := { s.metrics with
      droppedMonitorSamples := s.metrics.droppedMonitorSamples + s.queue.overflow.length }
    enqueued := s.enqueued ++ [⟨s.enqueued.length, data⟩]
    evicted := s.evicted ++ s.queue.overflow }

variable {cfg} in
/-- Writer `i` moves. -/
def moveWriter (s : State δ (capacity cfg)) (i : ℕ) (pc : WriterPc δ) :
    State δ (capacity cfg) :=
  { s with writers := s.writers.set i pc }

variable {cfg} in
/-- Writer `i` enters `writeToMysql` with sample `x`. -/
def passToWrite (s : State δ (capacity cfg)) (i : ℕ) (x : Sample δ) :
    State δ (capacity cfg) :=
  { moveWriter s i (.writing x) with writeLocked := true, written := s.written ++ [x] }

/-- **One critical section of the queue or of the writers.** -/
def step (s : State δ (capacity cfg)) : Action δ → Option (State δ (capacity cfg))
  | .enqueue data => some (enqueueMysqlWrite s data)
  | .iterate i => s.writers[i]?.bind fun
      | .waiting =>
        match s.queue.read with
        | some (x, q) => some { moveWriter s i (.holding x) with queue := q }
        | none => if s.running then some s else some (moveWriter s i .returned)
      | _ => none
  | .acquire i => s.writers[i]?.bind fun
      | .holding x => if s.writeLocked then none else some (passToWrite s i x)
      | _ => none
  | .release i => s.writers[i]?.bind fun
      | .writing _ => some { moveWriter s i .waiting with writeLocked := false }
      | _ => none
  | .stop =>
    some { s with running := false, early := s.early <|> some s.enqueued.length }
  | .drop => some { s with
      metrics := { s.metrics with
        droppedMonitorSamples := s.metrics.droppedMonitorSamples + 1 }
      otherDrops := s.otherDrops + 1 }

end Step

/-! ### What each action requires and does -/

section Inversion

variable {cfg : ManagerConfig} {s s' : State δ (capacity cfg)} {i : ℕ}

theorem step_iterate (hs : step cfg s (.iterate i) = some s') :
    s.writers[i]? = some .waiting ∧
      ((∃ x q, s.queue.read = some (x, q) ∧
          s' = { moveWriter s i (.holding x) with queue := q }) ∨
        (s.queue.items = [] ∧ s' = s) ∨
        (s.queue.items = [] ∧ s.running = false ∧ s' = moveWriter s i .returned)) := by
  obtain ⟨pc, hi, h⟩ := Option.bind_eq_some_iff.mp hs
  cases pc with
  | waiting =>
    refine ⟨hi, ?_⟩
    simp only at h
    split at h
    · next x q hq => exact .inl ⟨x, q, hq, (Option.some.inj h).symm⟩
    · next hq =>
      split at h
      · exact .inr (.inl ⟨Fifo.read_eq_none hq, (Option.some.inj h).symm⟩)
      · next hr =>
        exact .inr (.inr ⟨Fifo.read_eq_none hq, by simpa using hr, (Option.some.inj h).symm⟩)
  | _ => cases h

theorem step_acquire (hs : step cfg s (.acquire i) = some s') :
    ∃ x, s.writers[i]? = some (.holding x) ∧ s.writeLocked = false ∧ s' = passToWrite s i x := by
  obtain ⟨pc, hi, h⟩ := Option.bind_eq_some_iff.mp hs
  cases pc with
  | holding x =>
    simp only at h
    split at h
    · cases h
    · next hl => exact ⟨x, hi, by simpa using hl, (Option.some.inj h).symm⟩
  | _ => cases h

theorem step_release (hs : step cfg s (.release i) = some s') :
    ∃ x, s.writers[i]? = some (.writing x) ∧
      s' = { moveWriter s i .waiting with writeLocked := false } := by
  obtain ⟨pc, hi, h⟩ := Option.bind_eq_some_iff.mp hs
  cases pc with
  | writing x => exact ⟨x, hi, (Option.some.inj h).symm⟩
  | _ => cases h

end Inversion

/-! ### Where the samples are -/

section Conservation

variable {cfg : ManagerConfig} {s s' : State δ (capacity cfg)} {i : ℕ}

/-- The sample a writer holds in its hands, between the two mutexes. -/
def WriterPc.held : WriterPc δ → List (Sample δ)
  | .holding x => [x]
  | _ => []

/-- The samples held by the writers. -/
def held (s : State δ (capacity cfg)) : List (Sample δ) := s.writers.flatMap WriterPc.held

/-- **The invariant of the samples.** -/
structure Accounted (s : State δ (capacity cfg)) : Prop where
  /-- The queue is what was enqueued last; what was enqueued before is written, held or
  evicted. -/
  taken : ∃ taken, s.enqueued = taken ++ s.queue.items ∧
    taken.Perm (s.written ++ held s ++ s.evicted)
  /-- A sample is named by its position. -/
  seqs : s.enqueued.map Sample.seq = List.range s.enqueued.length
  /-- Every eviction is counted once. -/
  dropped : s.metrics.droppedMonitorSamples = s.evicted.length + s.otherDrops
  /-- The flag is cleared once and for all. -/
  stopped : s.early.isSome ↔ s.running = false
  /-- A writer that has returned left no sample behind that was enqueued before `stop`. -/
  drained : .returned ∈ s.writers → s.running = false ∧
    ∀ n, s.early = some n → ∀ x ∈ s.queue.items, n ≤ x.seq
  /-- What was enqueued before `stop` is part of what was enqueued. -/
  early_le : ∀ n, s.early = some n → n ≤ s.enqueued.length
  /-- There are the writers `start` created. -/
  pool : s.writers.length = writerThreads cfg

namespace Accounted

theorem start : Accounted (start cfg : State δ (capacity cfg)) where
  taken := by
    refine ⟨[], rfl, ?_⟩
    have hheld : held (WriteQueue.start cfg : State δ (capacity cfg)) = [] := by
      simp [held, WriteQueue.start, WriterPc.held]
    rw [hheld]
    exact .nil
  seqs := rfl
  dropped := rfl
  stopped := by simp [WriteQueue.start]
  drained h := by simp [WriteQueue.start] at h
  early_le n h := by simp [WriteQueue.start] at h
  pool := by simp [WriteQueue.start]

/-- Moving writer `i` exchanges what it held for what it holds. -/
theorem held_moveWriter {pc : WriterPc δ} (hi : s.writers[i]? = some pc) (pc' : WriterPc δ) :
    (pc.held ++ held (moveWriter s i pc')).Perm (pc'.held ++ held s) :=
  Lists.flatMap_set_perm pc' hi

/-- No writer other than `i` returns when writer `i` moves elsewhere. -/
theorem returned_of_set {pc : WriterPc δ} (hpc : pc ≠ .returned)
    (h : .returned ∈ s.writers.set i pc) : .returned ∈ s.writers := by
  rcases List.mem_or_eq_of_mem_set h with hmem | heq
  · exact hmem
  · exact absurd heq.symm hpc

theorem enqueue (h : Accounted s) (data : δ) : Accounted (enqueueMysqlWrite s data) where
  taken := by
    obtain ⟨taken, heq, hperm⟩ := h.taken
    -- what is evicted is taken from the head of the queue, as what is popped is
    refine ⟨taken ++ s.queue.overflow, ?_, ?_⟩
    · rw [List.append_assoc]
      simp only [enqueueMysqlWrite]
      rw [Fifo.overflow_append_pushEvicting, ← List.append_assoc, ← heq]
    · exact (List.append_assoc _ _ _) ▸ hperm.append_right s.queue.overflow
  seqs := by
    simp [enqueueMysqlWrite, h.seqs, List.range_succ]
  dropped := by
    have := h.dropped
    simp only [enqueueMysqlWrite, List.length_append]
    omega
  stopped := h.stopped
  drained hret := by
    obtain ⟨hrun, hq⟩ := h.drained hret
    refine ⟨hrun, fun n hn x hx => ?_⟩
    have hmem : x ∈ s.queue.items ++ [⟨s.enqueued.length, data⟩] := by
      rw [← Fifo.overflow_append_pushEvicting (capacity_pos cfg)]
      exact List.mem_append_right _ hx
    rcases List.mem_append.mp hmem with hold | hnew
    · exact hq n hn x hold
    · obtain rfl := List.mem_singleton.mp hnew
      exact h.early_le n hn
  early_le n hn := by
    have := h.early_le n hn
    simp only [enqueueMysqlWrite, List.length_append]
    omega
  pool := h.pool

/-- A writer pops the oldest sample. -/
theorem pop (h : Accounted s) (hi : s.writers[i]? = some .waiting) {x : Sample δ}
    {q : Fifo (Sample δ) (capacity cfg)} (hq : s.queue.read = some (x, q)) :
    Accounted { moveWriter s i (.holding x) with queue := q } where
  taken := by
    obtain ⟨taken, heq, hperm⟩ := h.taken
    have hitems := Fifo.read_eq_some hq
    have hheld : (held (moveWriter s i (.holding x))).Perm (x :: held s) :=
      held_moveWriter hi (.holding x)
    refine ⟨taken ++ [x], ?_, ?_⟩
    · rw [List.append_assoc, List.singleton_append, ← hitems]
      exact heq
    · have hmid : (s.written ++ (x :: held s) ++ s.evicted).Perm
          (x :: (s.written ++ held s ++ s.evicted)) := by
        simp
      have hnew := ((hheld.append_left s.written).append_right s.evicted).trans hmid
      exact (List.perm_append_singleton x taken).trans ((hperm.cons x).trans hnew.symm)
  seqs := h.seqs
  dropped := h.dropped
  stopped := h.stopped
  drained hret := by
    obtain ⟨hrun, hall⟩ := h.drained (returned_of_set (by simp) hret)
    refine ⟨hrun, fun n hn y hy => hall n hn y ?_⟩
    rw [Fifo.read_eq_some hq]
    exact List.mem_cons_of_mem x hy
  early_le := h.early_le
  pool := (List.length_set ..).trans h.pool

/-- A writer moves between places where it holds no sample. -/
theorem move (h : Accounted s) {pc : WriterPc δ} (hi : s.writers[i]? = some pc)
    (hold : pc.held = []) (pc' : WriterPc δ) (hnew : pc'.held = [])
    (hret : pc' = .returned → s.running = false ∧ s.queue.items = []) :
    Accounted (moveWriter s i pc') where
  taken := by
    obtain ⟨taken, heq, hperm⟩ := h.taken
    have hheld : (held (moveWriter s i pc')).Perm (held s) := by
      simpa [hold, hnew] using held_moveWriter hi pc'
    refine ⟨taken, heq, hperm.trans ?_⟩
    exact ((hheld.append_left s.written).append_right s.evicted).symm
  seqs := h.seqs
  dropped := h.dropped
  stopped := h.stopped
  drained hmem := by
    rcases List.mem_or_eq_of_mem_set hmem with hmem | heq
    · exact h.drained hmem
    · -- a writer returns only with the queue empty, so nothing early is left in it
      obtain ⟨hrun, hempty⟩ := hret heq.symm
      refine ⟨hrun, fun n _ x hx => ?_⟩
      rw [show (moveWriter s i pc').queue.items = [] from hempty] at hx
      cases hx
  early_le := h.early_le
  pool := (List.length_set ..).trans h.pool

/-- A writer passes the sample it holds to `writeToMysql`. -/
theorem pass (h : Accounted s) {x : Sample δ} (hi : s.writers[i]? = some (.holding x)) :
    Accounted (passToWrite s i x) where
  taken := by
    obtain ⟨taken, heq, hperm⟩ := h.taken
    have hheld : (x :: held (moveWriter s i (.writing x))).Perm (held s) :=
      held_moveWriter hi (.writing x)
    refine ⟨taken, heq, hperm.trans ?_⟩
    have hnew := ((hheld.append_left s.written).append_right s.evicted).symm
    have hassoc : s.written ++ (x :: held (moveWriter s i (.writing x))) ++ s.evicted =
        s.written ++ [x] ++ held (moveWriter s i (.writing x)) ++ s.evicted := by simp
    exact hassoc ▸ hnew
  seqs := h.seqs
  dropped := h.dropped
  stopped := h.stopped
  drained hret := h.drained (returned_of_set (by simp) hret)
  early_le := h.early_le
  pool := (List.length_set ..).trans h.pool

/-- **Every critical section keeps the samples accounted for.** -/
theorem step (h : Accounted s) {a : Action δ} (hs : step cfg s a = some s') : Accounted s' := by
  cases a with
  | enqueue data =>
    obtain rfl := Option.some.inj hs
    exact h.enqueue data
  | iterate i =>
    obtain ⟨hi, ⟨x, q, hq, rfl⟩ | ⟨-, rfl⟩ | ⟨hempty, hrun, rfl⟩⟩ := step_iterate hs
    · exact h.pop hi hq
    · exact h
    · exact h.move hi rfl .returned rfl fun _ => ⟨hrun, hempty⟩
  | acquire i =>
    obtain ⟨x, hi, -, rfl⟩ := step_acquire hs
    exact h.pass hi
  | release i =>
    obtain ⟨x, hi, rfl⟩ := step_release hs
    have hm := h.move hi rfl .waiting rfl (by simp)
    exact ⟨hm.taken, hm.seqs, hm.dropped, hm.stopped, hm.drained, hm.early_le, hm.pool⟩
  | stop =>
    obtain rfl := Option.some.inj hs
    refine ⟨h.taken, h.seqs, h.dropped, ?_, fun hret => ?_, fun n hn => ?_, h.pool⟩
    · cases s.early <;> simp
    · -- a writer has returned: this is a second `stop`, which leaves the mark where it is
      obtain ⟨hrun, hall⟩ := h.drained hret
      refine ⟨rfl, fun n hn => hall n ?_⟩
      obtain ⟨m, hm⟩ := Option.isSome_iff_exists.mp (h.stopped.mpr hrun)
      simpa [hm] using hn
    · cases he : s.early with
      | none =>
        obtain rfl : s.enqueued.length = n := by simpa [he] using hn
        exact le_rfl
      | some m =>
        obtain rfl : m = n := by simpa [he] using hn
        exact h.early_le m he
  | drop =>
    obtain rfl := Option.some.inj hs
    refine ⟨h.taken, h.seqs, ?_, h.stopped, h.drained, h.early_le, h.pool⟩
    have := h.dropped
    simp only
    omega

/-- No sample is enqueued twice. -/
theorem enqueued_nodup (h : Accounted s) : s.enqueued.Nodup :=
  .of_map Sample.seq (by rw [h.seqs]; exact List.nodup_range)

/-- Samples are enqueued in the order of their names. -/
theorem enqueued_sorted (h : Accounted s) : s.enqueued.Pairwise fun x y => x.seq < y.seq := by
  rw [← List.pairwise_map (f := Sample.seq) (R := (· < ·)), h.seqs]
  exact List.pairwise_lt_range

/-- What was enqueued is, up to order, what was written, what is held, what was evicted
and what is queued. -/
theorem enqueued_perm (h : Accounted s) :
    s.enqueued.Perm (s.written ++ held s ++ s.evicted ++ s.queue.items) := by
  obtain ⟨taken, heq, hperm⟩ := h.taken
  rw [heq]
  exact hperm.append_right s.queue.items

/-- The oldest queued sample comes first. -/
theorem queue_sorted (h : Accounted s) : s.queue.items.Pairwise fun x y => x.seq < y.seq := by
  obtain ⟨taken, heq, -⟩ := h.taken
  have hsorted := h.enqueued_sorted
  rw [heq] at hsorted
  exact (List.pairwise_append.mp hsorted).2.1

end Accounted

theorem run_accounted {acts : List (Action δ)}
    (hr : Runs.run (WriteQueue.step cfg) (WriteQueue.start cfg) acts = some s) : Accounted s :=
  Runs.run_invariant (fun _ _ _ h hs => h.step hs) .start hr

/-- What one action evicts: at most one sample, the oldest one queued, and it is
counted. -/
def EvictsOldest (s s' : State δ (capacity cfg)) : Prop :=
  s'.evicted = s.evicted ∨
    ∃ x rest, s.queue.items = x :: rest ∧ (∀ y ∈ rest, x.seq < y.seq) ∧
      s'.evicted = s.evicted ++ [x] ∧
      s'.metrics.droppedMonitorSamples = s.metrics.droppedMonitorSamples + 1

theorem Accounted.evictsOldest (h : Accounted s) {a : Action δ}
    (hs : WriteQueue.step cfg s a = some s') : EvictsOldest s s' := by
  cases a with
  | enqueue data =>
    obtain rfl := Option.some.inj hs
    have hsorted := h.queue_sorted
    by_cases hfull : capacity cfg ≤ s.queue.items.length
    · -- a full queue is not empty
      obtain ⟨x, rest, hitems⟩ : ∃ x rest, s.queue.items = x :: rest :=
        List.exists_cons_of_length_pos ((capacity_pos cfg).trans_le hfull)
      rw [hitems] at hsorted
      have hover : s.queue.overflow = [x] := by
        rw [Fifo.overflow, if_pos hfull, hitems]
        rfl
      exact .inr ⟨x, rest, hitems, (List.pairwise_cons.mp hsorted).1,
        by simp [enqueueMysqlWrite, hover], by simp [enqueueMysqlWrite, hover]⟩
    · exact .inl (by simp [enqueueMysqlWrite, Fifo.overflow, hfull])
  | iterate i =>
    obtain ⟨-, ⟨x, q, -, rfl⟩ | ⟨-, rfl⟩ | ⟨-, -, rfl⟩⟩ := step_iterate hs <;> exact .inl rfl
  | acquire i =>
    obtain ⟨x, -, -, rfl⟩ := step_acquire hs
    exact .inl rfl
  | release i =>
    obtain ⟨x, -, rfl⟩ := step_release hs
    exact .inl rfl
  | stop =>
    obtain rfl := Option.some.inj hs
    exact .inl rfl
  | drop =>
    obtain rfl := Option.some.inj hs
    exact .inl rfl

/-- **What the queue guarantees** in a state. -/
structure Conserved (s : State δ (capacity cfg)) : Prop where
  /-- The queue is never longer than configured, a capacity of zero counting as one. -/
  bounded : s.queue.items.length ≤ max 1 cfg.taskQueueCapacity
  /-- Every enqueued sample is in one place … -/
  conserved : s.enqueued.Perm (s.written ++ held s ++ s.evicted ++ s.queue.items)
  /-- … once. -/
  once : (s.written ++ held s ++ s.evicted ++ s.queue.items).Nodup
  /-- The counter counts the evictions, one each, besides what others count. -/
  counted : s.metrics.droppedMonitorSamples = s.evicted.length + s.otherDrops
  /-- What is evicted next is the oldest sample queued, and it is counted. -/
  oldest : ∀ a s', WriteQueue.step cfg s a = some s' → EvictsOldest s s'
  /-- When all writers have returned, every sample enqueued before `running_` was cleared
  has been written or evicted: none is held and none is queued. -/
  finished : (∀ pc ∈ s.writers, pc = .returned) →
    held s = [] ∧ ∃ n, s.early = some n ∧ ∀ x ∈ s.queue.items, n ≤ x.seq

/-- **The write queue loses and duplicates nothing**: for every configured capacity, any
number of writers and every interleaving of `enqueueMysqlWrite`, the iterations of
`mysqlWriteLoop` and `stop`. -/
theorem conservation (acts : List (Action δ))
    (hr : Runs.run (WriteQueue.step cfg) (WriteQueue.start cfg) acts = some s) :
    Conserved s := by
  have h := run_accounted hr
  refine ⟨s.queue.length_le, h.enqueued_perm, h.enqueued_perm.nodup_iff.mp h.enqueued_nodup,
    h.dropped, fun a s' hs => h.evictsOldest hs, fun hret => ⟨?_, ?_⟩⟩
  · refine List.flatMap_eq_nil_iff.mpr fun pc hpc => ?_
    rw [hret pc hpc]
    rfl
  · have hmem : .returned ∈ s.writers := by
      obtain ⟨pc, hpc⟩ := List.exists_mem_of_length_pos (h.pool ▸ writerThreads_pos cfg)
      exact hret pc hpc ▸ hpc
    obtain ⟨hrun, hq⟩ := h.drained hmem
    obtain ⟨n, hn⟩ := Option.isSome_iff_exists.mp (h.stopped.mpr hrun)
    exact ⟨n, hn, hq n hn⟩

/-- A queue of configured capacity zero and one writer. -/
def tinyQueue : ManagerConfig := { taskQueueCapacity := 0, mysqlWritePoolMax := 0 }

/-- Three samples before `stop`, of which one is evicted, and one after it. -/
def tinyRun : List (Action String) :=
  [.enqueue "a", .enqueue "b", .iterate 0, .acquire 0, .enqueue "c", .stop, .release 0,
    .iterate 0, .acquire 0, .release 0, .iterate 0, .enqueue "d"]

theorem conservation_tinyRun : ∃ s,
    Runs.run (WriteQueue.step tinyQueue) (WriteQueue.start tinyQueue) tinyRun = some s ∧
    s.evicted = [⟨0, "a"⟩] ∧ s.written = [⟨1, "b"⟩, ⟨2, "c"⟩] ∧
    s.queue.items = [⟨3, "d"⟩] ∧ s.early = some 3 ∧ Conserved s :=
  ⟨_, rfl, rfl, rfl, rfl, rfl, conservation tinyRun rfl⟩

end Conservation

end WriteQueue

end MonitorSystem
