import MonitorSystem.Manager.MysqlWriter
import MonitorSystem.Manager.WriteQueue

/-!
# The order in which the samples of a host are written

The change rates of a row are computed against the sample of the same host that
`writeToMysql` was called with before. The queue hands the samples out in the order in
which they were enqueued, but a writer pops under one mutex and writes under another,
and between the two another writer may overtake it: the sample popped first is then
written second, its rates are computed against its successor, and it is left behind as
the "previous" sample (`WriteQueue.writers_swap`).

`WriteQueue.write_order` says that nothing else disturbs the order. If every writer that
enters `writeToMysql` holds the oldest of the samples of its host that are held at all,
then the samples of a host are written in the order in which they were enqueued, and the
rows are those of one writer that writes them one after the other; and a run that ends
with no sample held and the order right had no overtaking. A manager configured with one
writer thread therefore keeps the order in every run, and no other one does
(`WriteQueue.exists_swapped`).
-/

namespace MonitorSystem

namespace WriteQueue

variable {δ : Type} {cfg : ManagerConfig} {s s' : State δ (capacity cfg)} {i : ℕ}
  {host : δ → String}

/-! ### Overtaking -/

/-- A writer that enters `writeToMysql` holds the oldest of the samples of its host that
are held. -/
def PassesOldest (host : δ → String) (s : State δ (capacity cfg)) : Action δ → Prop
  | .acquire i => ∀ x, s.writers[i]? = some (.holding x) →
      ∀ y ∈ held s, host y.data = host x.data → x.seq ≤ y.seq
  | _ => True

/-- The samples of one host were written, and are held, in their order. -/
structure Ordered (host : δ → String) (s : State δ (capacity cfg)) : Prop where
  written : s.written.Pairwise fun x y => host x.data = host y.data → x.seq < y.seq
  held : ∀ x ∈ s.written, ∀ y ∈ WriteQueue.held s, host x.data = host y.data → x.seq < y.seq

/-- What has left the queue is older than what is in it. -/
theorem Accounted.lt_of_queued (h : Accounted s) {x y : Sample δ}
    (hx : x ∈ s.written ++ held s ++ s.evicted) (hy : y ∈ s.queue.items) : x.seq < y.seq := by
  obtain ⟨taken, heq, hperm⟩ := h.taken
  have hsorted := h.enqueued_sorted
  rw [heq] at hsorted
  exact (List.pairwise_append.mp hsorted).2.2 x (hperm.mem_iff.mpr hx) y hy

/-- No two samples have the same position. -/
theorem Accounted.seqs_nodup (h : Accounted s) :
    ((s.written ++ held s ++ s.evicted ++ s.queue.items).map Sample.seq).Nodup := by
  rw [← (h.enqueued_perm.map Sample.seq).nodup_iff, h.seqs]
  exact List.nodup_range

/-- What the writers hold after one of them has let go of sample `x`. -/
theorem held_of_pass {x : Sample δ} (hi : s.writers[i]? = some (.holding x)) :
    (x :: held (passToWrite s i x)).Perm (held s) :=
  Accounted.held_moveWriter hi (.writing x)

namespace Ordered

theorem start : Ordered host (start cfg : State δ (capacity cfg)) :=
  ⟨.nil, fun _ hx => (List.not_mem_nil hx).elim⟩

/-- A step that writes nothing and after which the writers hold no more than before. -/
theorem frame (h : Ordered host s) (hw : s'.written = s.written)
    (hh : ∀ y ∈ WriteQueue.held s', y ∈ WriteQueue.held s) : Ordered host s' where
  written := by
    rw [hw]
    exact h.written
  held x hx y hy := h.held x (hw ▸ hx) y (hh y hy)

/-- A writer that holds no sample moves to where it holds none. -/
theorem move (h : Ordered host s) {pc : WriterPc δ} (hi : s.writers[i]? = some pc)
    (hold : pc.held = []) (pc' : WriterPc δ) (hnew : pc'.held = [])
    (hs : s'.writers = s.writers.set i pc') (hw : s'.written = s.written) :
    Ordered host s' := by
  refine h.frame hw fun y hy => ?_
  have hperm : (WriteQueue.held (moveWriter s i pc')).Perm (WriteQueue.held s) := by
    simpa [hold, hnew] using Accounted.held_moveWriter hi pc'
  refine hperm.mem_iff.mp ?_
  rw [WriteQueue.held, hs] at hy
  exact hy

/-- **A step that overtakes nobody keeps the order.** -/
theorem step (h : Ordered host s) (ha : Accounted s) {a : Action δ}
    (hG : PassesOldest host s a) (hs : step cfg s a = some s') : Ordered host s' := by
  cases a with
  | enqueue data =>
    obtain rfl := Option.some.inj hs
    exact h.frame rfl fun y hy => hy
  | iterate i =>
    obtain ⟨hi, ⟨x, q, hq, rfl⟩ | ⟨-, rfl⟩ | ⟨-, -, rfl⟩⟩ := step_iterate hs
    · -- the popped sample is younger than everything written
      refine ⟨h.written, fun w hw y hy hhost => ?_⟩
      have hmem : y ∈ x :: WriteQueue.held s :=
        (Accounted.held_moveWriter hi (.holding x)).mem_iff.mp hy
      rcases List.mem_cons.mp hmem with rfl | hold
      · refine ha.lt_of_queued ?_ (by rw [Fifo.read_eq_some hq]; exact List.mem_cons_self)
        exact List.mem_append_left _ (List.mem_append_left _ hw)
      · exact h.held w hw y hold hhost
    · exact h
    · exact h.move hi rfl .returned rfl rfl rfl
  | acquire i =>
    obtain ⟨x, hi, -, rfl⟩ := step_acquire hs
    have hperm := held_of_pass hi
    have hx : x ∈ WriteQueue.held s := hperm.mem_iff.mp List.mem_cons_self
    -- what was written before is older than what is held, the passed sample included; the
    -- held samples of its host are younger, since the step overtakes nobody
    refine ⟨List.pairwise_append.mpr ⟨h.written, List.pairwise_singleton _ _, ?_⟩, ?_⟩
    · intro w hw y hy hhost
      obtain rfl := List.mem_singleton.mp hy
      exact h.held w hw y hx hhost
    · intro w hw y hy hhost
      have hy' : y ∈ WriteQueue.held s := hperm.mem_iff.mp (List.mem_cons_of_mem x hy)
      rcases List.mem_append.mp hw with hw | hw
      · exact h.held w hw y hy' hhost
      · obtain rfl := List.mem_singleton.mp hw
        have hle := hG w hi y hy' hhost.symm
        -- they are different samples: a sample is held by one writer only
        have hne : w.seq ≠ y.seq := by
          have hnodup : ((WriteQueue.held s).map Sample.seq).Nodup := by
            have := ha.seqs_nodup
            simp only [List.map_append] at this
            exact (List.nodup_append.mp (List.nodup_append.mp
              (List.nodup_append.mp this).1).1).2.1
          have hcons : ((w :: WriteQueue.held (passToWrite s i w)).map Sample.seq).Nodup :=
            (hperm.map Sample.seq).nodup_iff.mpr hnodup
          exact fun heq => (List.nodup_cons.mp hcons).1 (heq ▸ List.mem_map_of_mem hy)
        omega
  | release i =>
    obtain ⟨x, hi, rfl⟩ := step_release hs
    exact h.move hi rfl .waiting rfl rfl rfl
  | stop =>
    obtain rfl := Option.some.inj hs
    exact h.frame rfl fun y hy => hy
  | drop =>
    obtain rfl := Option.some.inj hs
    exact h.frame rfl fun y hy => hy

end Ordered

/-- Some sample was written before an older one of the same host. -/
def Overtaken (host : δ → String) (s : State δ (capacity cfg)) : Prop :=
  ∃ x y, host y.data = host x.data ∧ y.seq < x.seq ∧ x ∈ s.written ∧
    (y ∈ held s ∨ [x, y].Sublist s.written)

/-- Passing a sample while an older one of its host is held is overtaking. -/
theorem overtaken_of_not_passesOldest {a : Action δ} (hG : ¬PassesOldest host s a)
    (hs : step cfg s a = some s') : Overtaken host s' := by
  cases a with
  | acquire i =>
    simp only [PassesOldest, not_forall] at hG
    obtain ⟨x, hi, y, hy, hhost, hlt⟩ := hG
    obtain ⟨x', hi', -, rfl⟩ := step_acquire hs
    obtain rfl : x = x' := by simpa [hi] using hi'
    refine ⟨x, y, hhost, by omega, by simp [passToWrite], .inl ?_⟩
    rcases List.mem_cons.mp ((held_of_pass hi).mem_iff.mpr hy) with rfl | hmem
    · omega
    · exact hmem
  | _ => exact absurd trivial hG

/-- **Overtaking cannot be undone.** -/
theorem Overtaken.step (h : Overtaken host s) {a : Action δ} (hs : step cfg s a = some s') :
    Overtaken host s' := by
  obtain ⟨x, y, hhost, hlt, hx, hy⟩ := h
  have hkeep : ∀ t : State δ (capacity cfg), s.written <+: t.written →
      (y ∈ held s → y ∈ held t ∨ [x, y].Sublist t.written) → Overtaken host t := by
    intro t hpre hheld
    refine ⟨x, y, hhost, hlt, hpre.subset hx, ?_⟩
    rcases hy with hy | hy
    · exact hheld hy
    · exact .inr (hy.trans hpre.sublist)
  -- a writer that holds no sample moves
  have hmove : ∀ (i : ℕ) (pc : WriterPc δ), s.writers[i]? = some pc → pc.held = [] →
      ∀ (pc' : WriterPc δ) (t : State δ (capacity cfg)), t.writers = s.writers.set i pc' →
      t.written = s.written → Overtaken host t := by
    intro i pc hi hpc pc' t hset hw
    refine hkeep t (hw ▸ List.prefix_rfl) fun hy => .inl ?_
    have hperm := Accounted.held_moveWriter hi pc'
    rw [hpc, List.nil_append] at hperm
    rw [WriteQueue.held, hset]
    exact hperm.mem_iff.mpr (List.mem_append_right _ hy)
  cases a with
  | enqueue data =>
    obtain rfl := Option.some.inj hs
    exact hkeep _ List.prefix_rfl .inl
  | iterate i =>
    obtain ⟨hi, ⟨z, q, -, rfl⟩ | ⟨-, rfl⟩ | ⟨-, -, rfl⟩⟩ := step_iterate hs
    · exact hmove i _ hi rfl (.holding z) _ rfl rfl
    · exact hkeep _ List.prefix_rfl .inl
    · exact hmove i _ hi rfl .returned _ rfl rfl
  | acquire i =>
    obtain ⟨z, hi, -, rfl⟩ := step_acquire hs
    refine hkeep _ (List.prefix_append _ _) fun hy => ?_
    rcases List.mem_cons.mp ((held_of_pass hi).mem_iff.mpr hy) with rfl | hmem
    · exact .inr ((List.singleton_sublist.mpr hx).append (List.Sublist.refl [y]))
    · exact .inl hmem
  | release i =>
    obtain ⟨z, hi, rfl⟩ := step_release hs
    exact hmove i _ hi rfl .waiting _ rfl rfl
  | stop =>
    obtain rfl := Option.some.inj hs
    exact hkeep _ List.prefix_rfl .inl
  | drop =>
    obtain rfl := Option.some.inj hs
    exact hkeep _ List.prefix_rfl .inl

/-! ### The order of the writes -/

section Order

variable [DecidableEq δ]

/-- The samples of each host were passed to `writeToMysql` in the order in which they
were enqueued. -/
def InOrder (host : δ → String) (s : State δ (capacity cfg)) : Prop :=
  ∀ h, s.written.filter (fun x => host x.data = h) =
    s.enqueued.filter fun x => host x.data = h ∧ x ∈ s.written

theorem Accounted.inOrder (ha : Accounted s) (h : Ordered host s) : InOrder host s := by
  intro name
  have hall := ha.enqueued_perm
  have hwritten : s.written.Nodup := by
    have hnodup := hall.nodup_iff.mp ha.enqueued_nodup
    exact (List.nodup_append.mp (List.nodup_append.mp (List.nodup_append.mp hnodup).1).1).1
  have hanti : ∀ x y : Sample δ, x ∈ s.written.filter (fun z => host z.data = name) →
      y ∈ s.enqueued.filter (fun z => host z.data = name ∧ z ∈ s.written) →
      x.seq < y.seq → y.seq < x.seq → x = y := by
    intro x y _ _ hxy hyx
    omega
  -- two lists with the same members, both sorted by the number of the enqueuing
  refine List.Perm.eq_of_pairwise hanti ?_ (ha.enqueued_sorted.filter _) ?_
  · refine List.pairwise_filter.mpr (h.written.imp fun hxy hx hy => hxy ?_)
    simp only [decide_eq_true_eq] at hx hy
    rw [hx, hy]
  · refine (List.perm_ext_iff_of_nodup (hwritten.filter _)
      (ha.enqueued_nodup.filter _)).mpr fun x => ?_
    simp only [List.mem_filter, decide_eq_true_eq]
    constructor
    · rintro ⟨hx, hname⟩
      exact ⟨hall.mem_iff.mpr (by simp [hx]), hname, hx⟩
    · rintro ⟨-, hname, hx⟩
      exact ⟨hx, hname⟩

/-- What was written out of order is not in order. -/
theorem Overtaken.not_inOrder (h : Overtaken host s) (ha : Accounted s) (hheld : held s = []) :
    ¬InOrder host s := by
  intro hord
  obtain ⟨x, y, hhost, hlt, -, hy | hsub⟩ := h
  · rw [hheld] at hy
    cases hy
  · -- the two samples keep their order among those of their host, which is that of the queue
    have hfilter : [x, y].Sublist (s.written.filter fun z => host z.data = host x.data) := by
      have := hsub.filter fun z => decide (host z.data = host x.data)
      simpa [hhost] using this
    rw [hord] at hfilter
    have hpair := List.pairwise_iff_forall_sublist.mp ha.enqueued_sorted
      (hfilter.trans List.filter_sublist)
    omega

end Order

/-- The rows of each host are those of one writer that writes its samples in the order in
which they were enqueued, so that every change rate is computed against the sample
written before; which of the writes get a connection does not matter. -/
def RowsInOrder (p : Platform) (s : State HostMonitoringData (capacity cfg)) : Prop :=
  ∀ (connected : Sample HostMonitoringData → Bool) (h : String),
    (MysqlWriter.writeAll p .init ((s.written.filter connected).map Sample.data)).filter
        (fun w => w.1.hostName = h) =
      MysqlWriter.writeAll p .init
        ((s.enqueued.filter fun x =>
          (x.data.hostName = h ∧ x ∈ s.written) ∧ connected x = true).map Sample.data)

theorem InOrder.rowsInOrder {s : State HostMonitoringData (capacity cfg)}
    (h : InOrder HostMonitoringData.hostName s) (p : Platform) : RowsInOrder p s := by
  intro connected name
  rw [MysqlWriter.writeAll_filter, List.filter_map, List.filter_filter]
  congr 2
  have hname := congrArg (List.filter connected) (h name)
  simp only [List.filter_filter] at hname
  refine Eq.trans (List.filter_congr fun x _ => ?_) (hname.trans (List.filter_congr fun x _ => ?_))
  · simp [Bool.and_comm]
  · simp [Bool.and_comm]

/-! ### One writer, and more -/

/-- A single writer has nobody to overtake. -/
theorem Accounted.passesOldest (h : Accounted s) (hone : writerThreads cfg = 1) (a : Action δ) :
    PassesOldest host s a := by
  cases a with
  | acquire i =>
    intro x hi y hy _
    obtain ⟨pc, hpc⟩ := List.length_eq_one_iff.mp (h.pool.trans hone)
    obtain rfl : .holding x = pc := by
      simpa [hpc] using List.mem_of_getElem? hi
    simp only [held, hpc, WriterPc.held, List.flatMap_singleton, List.mem_singleton] at hy
    rw [hy]
  | _ => exact trivial

/-- Some run leads from one state to another. -/
def Leads (s t : State δ (capacity cfg)) : Prop :=
  Runs.Leads (step cfg) (fun _ => True) (fun _ => True) s t

/-- A sample comes into an empty queue, and a writer pops it. -/
theorem leads_holding (data : δ) (hq : s.queue.items = []) (hi : s.writers[i]? = some .waiting) :
    ∃ t, Leads s t ∧ t.queue.items = [] ∧
      t.writers = s.writers.set i (.holding ⟨s.enqueued.length, data⟩) ∧
      t.enqueued = s.enqueued ++ [⟨s.enqueued.length, data⟩] ∧ t.written = s.written ∧
      t.writeLocked = s.writeLocked := by
  obtain ⟨q, hread, hrest⟩ := Fifo.read_of_cons
    (Fifo.pushEvicting_of_nil (capacity_pos cfg) hq ⟨s.enqueued.length, data⟩)
  refine ⟨{ moveWriter (enqueueMysqlWrite s data) i (.holding ⟨s.enqueued.length, data⟩) with
    queue := q }, ?_, hrest, rfl, rfl, rfl, rfl⟩
  refine Runs.Leads.head (.enqueue data) trivial trivial rfl
    (Runs.Leads.head (.iterate i) trivial trivial ?_ (.refl trivial))
  have hi' : (enqueueMysqlWrite s data).writers[i]? = some .waiting := hi
  have hread' : (enqueueMysqlWrite s data).queue.read = some (_, q) := hread
  simp only [step, hi', Option.bind_some, hread']

/-- A writer writes the sample it holds. -/
theorem leads_written {x : Sample δ} (hi : s.writers[i]? = some (.holding x))
    (hl : s.writeLocked = false) :
    ∃ t, Leads s t ∧ t.writers = s.writers.set i .waiting ∧ t.enqueued = s.enqueued ∧
      t.written = s.written ++ [x] ∧ t.writeLocked = false := by
  have hlt : i < s.writers.length := (List.getElem?_eq_some_iff.mp hi).1
  have hi' : (passToWrite s i x).writers[i]? = some (.writing x) := by
    simp [passToWrite, moveWriter, hlt]
  refine ⟨{ moveWriter (passToWrite s i x) i .waiting with writeLocked := false }, ?_, ?_, rfl, rfl,
    rfl⟩
  · refine Runs.Leads.head (t := passToWrite s i x) (.acquire i) trivial trivial ?_
      (Runs.Leads.head (.release i) trivial trivial ?_ (.refl trivial))
    · simp only [step, hi, Option.bind_some, hl]
      rfl
    · simp only [step, hi', Option.bind_some]
  · simp [passToWrite, moveWriter]

/-- **Two writers can swap any two samples**, whatever the capacity of the queue. -/
theorem exists_swapped (hmany : 2 ≤ writerThreads cfg) (x y : δ) :
    ∃ t : State δ (capacity cfg), Leads (start cfg) t ∧
      t.enqueued = [⟨0, x⟩, ⟨1, y⟩] ∧ t.written = [⟨1, y⟩, ⟨0, x⟩] := by
  have hstart (i : ℕ) (hi : i < writerThreads cfg) :
      (start cfg : State δ (capacity cfg)).writers[i]? = some .waiting := by
    simp [start, hi]
  have hlen : (start cfg : State δ (capacity cfg)).writers.length = writerThreads cfg := by
    simp [start]
  -- the first writer pops the first sample, the second writer the second one
  obtain ⟨s₁, hs₁, hq₁, hw₁, he₁, hwr₁, hl₁⟩ := leads_holding (s := start cfg) (i := 0) x rfl
    (hstart 0 (by omega))
  obtain ⟨s₂, hs₂, -, hw₂, he₂, hwr₂, hl₂⟩ := leads_holding (i := 1) y hq₁
    (by rw [hw₁, List.getElem?_set_ne (by decide)]; exact hstart 1 (by omega))
  -- the second writer takes the write mutex first
  obtain ⟨s₃, hs₃, hw₃, he₃, hwr₃, hl₃⟩ := leads_written (s := s₂) (i := 1)
    (x := ⟨s₁.enqueued.length, y⟩)
    (by rw [hw₂, List.getElem?_set_self (by rw [hw₁, List.length_set, hlen]; omega)])
    (by rw [hl₂, hl₁]; rfl)
  obtain ⟨s₄, hs₄, -, he₄, hwr₄, -⟩ := leads_written (s := s₃) (i := 0) (x := ⟨0, x⟩)
    (by
      rw [hw₃, List.getElem?_set_ne (by decide), hw₂, List.getElem?_set_ne (by decide), hw₁,
        List.getElem?_set_self (by omega)]
      rfl) hl₃
  refine ⟨s₄, ((hs₁.trans hs₂).trans hs₃).trans hs₄, ?_, ?_⟩
  · rw [he₄, he₃, he₂, he₁]
    rfl
  · rw [hwr₄, hwr₃, hwr₂, hwr₁, he₁]
    rfl

theorem not_inOrder_of_swapped [DecidableEq δ] {x y : δ} (hhost : host x = host y)
    (he : s.enqueued = [⟨0, x⟩, ⟨1, y⟩]) (hw : s.written = [⟨1, y⟩, ⟨0, x⟩]) :
    ¬InOrder host s := by
  intro h
  have hx := h (host x)
  simp [he, hw, hhost] at hx

/-- A record of a host whose one disk is this busy. -/
def diskRecord (util : ℚ) (now : ℤ) : HostMonitoringData :=
  monitoringData .exact
    { hostInfo := some ⟨"web", "10.0.0.1"⟩, diskInfo := [{ name := "sda", utilPercent := util }] }
    ⟨"tenant", "team", "cluster", 1⟩ now {}

section Runs

variable {acts : List (Action HostMonitoringData)} {s : State HostMonitoringData (capacity cfg)}

/-- A run without overtaking writes the samples of a host in order. -/
theorem inOrder_of_passesOldest (p : Platform)
    (hr : Runs.run (step cfg) (start cfg) acts = some s)
    (hG : Runs.Along (step cfg) (PassesOldest HostMonitoringData.hostName) (start cfg) acts) :
    InOrder HostMonitoringData.hostName s ∧ RowsInOrder p s := by
  have h := Runs.run_invariant_along
    (P := fun s => Accounted s ∧ Ordered HostMonitoringData.hostName s)
    (fun _ _ _ h hg hs => ⟨h.1.step hs, h.2.step h.1 hg hs⟩) ⟨.start, .start⟩ hG hr
  have hord := h.1.inOrder h.2
  exact ⟨hord, hord.rowsInOrder p⟩

/-- A run that has written the samples of every host in order, and ends with none held, had
no overtaking. -/
theorem passesOldest_of_inOrder (hr : Runs.run (step cfg) (start cfg) acts = some s)
    (hheld : held s = []) (hord : InOrder HostMonitoringData.hostName s) :
    Runs.Along (step cfg) (PassesOldest HostMonitoringData.hostName) (start cfg) acts := by
  rcases Runs.along_or_marked (I := Accounted) (J := fun _ => True)
    (B := Overtaken HostMonitoringData.hostName)
    (fun _ _ _ h hs => h.step hs) (fun _ _ _ _ _ _ _ => trivial)
    (fun _ _ _ _ _ hG hs => overtaken_of_not_passesOldest hG hs)
    (fun _ _ _ _ h hs => h.step hs) .start trivial hr with h | h
  · exact h
  · exact absurd hord (h.not_inOrder (run_accounted hr) hheld)

end Runs

/-- **When the samples of a host are written in order.** In every run in which each writer
that enters `writeToMysql` holds the oldest held sample of its host, the samples of a host
are passed to `writeToMysql` in the order in which they were enqueued, and their rows are
computed one against the other; conversely, a run that ends with no sample in a writer's
hands and the order right had no overtaking. With one writer it is so in every run, and with
more it is not. -/
theorem write_order (p : Platform) (cfg : ManagerConfig) :
    (∀ (acts : List (Action HostMonitoringData)) (s : State HostMonitoringData (capacity cfg)),
      Runs.run (step cfg) (start cfg) acts = some s →
      (Runs.Along (step cfg) (PassesOldest HostMonitoringData.hostName) (start cfg) acts →
        InOrder HostMonitoringData.hostName s ∧ RowsInOrder p s) ∧
      (held s = [] → InOrder HostMonitoringData.hostName s →
        Runs.Along (step cfg) (PassesOldest HostMonitoringData.hostName) (start cfg) acts)) ∧
    ((∀ (acts : List (Action HostMonitoringData)) (s : State HostMonitoringData (capacity cfg)),
      Runs.run (step cfg) (start cfg) acts = some s →
      InOrder HostMonitoringData.hostName s ∧ RowsInOrder p s) ↔ writerThreads cfg = 1) := by
  refine ⟨fun acts s hr => ⟨inOrder_of_passesOldest p hr, passesOldest_of_inOrder hr⟩,
    fun h => ?_, fun hone acts s hr => ?_⟩
  · by_contra hne
    have hmany : 2 ≤ writerThreads cfg := by
      have := writerThreads_pos cfg
      omega
    obtain ⟨t, ⟨acts, -, -, hr⟩, he, hw⟩ :=
      exists_swapped hmany (diskRecord 50 0) (diskRecord 100 1)
    have hhost : (diskRecord 50 0).hostName = (diskRecord 100 1).hostName := rfl
    exact not_inOrder_of_swapped hhost he hw (h acts t hr).1
  · refine inOrder_of_passesOldest p hr (Runs.along_of_invariant (I := Accounted) ?_ ?_ .start)
    · exact fun _ _ _ h hs => h.step hs
    · exact fun _ a h => h.passesOldest hone a

/-- A pool of two writers. -/
def twoWriters : ManagerConfig := { mysqlWritePoolMax := 2 }

/-- Two writers that take turns. -/
def orderlyWrites : List (Action HostMonitoringData) :=
  [.enqueue (diskRecord 50 0), .enqueue (diskRecord 100 1), .iterate 0, .iterate 1, .acquire 0,
    .release 0, .acquire 1, .release 1]

/-- Two writers, the second of which is faster. -/
def overtakingWrites : List (Action HostMonitoringData) :=
  [.enqueue (diskRecord 50 0), .enqueue (diskRecord 100 1), .iterate 0, .iterate 1, .acquire 1,
    .release 1, .acquire 0, .release 0]

theorem write_order_orderlyWrites : ∃ s,
    Runs.run (step twoWriters) (start twoWriters) orderlyWrites = some s ∧ held s = [] ∧
    s.written = [⟨0, diskRecord 50 0⟩, ⟨1, diskRecord 100 1⟩] ∧
    (Runs.Along (step twoWriters) (PassesOldest HostMonitoringData.hostName) (start twoWriters)
        orderlyWrites ↔ InOrder HostMonitoringData.hostName s) := by
  refine ⟨_, rfl, rfl, rfl, fun h => ?_, fun h => ?_⟩
  · exact (((write_order .exact twoWriters).1 orderlyWrites _ rfl).1 h).1
  · exact ((write_order .exact twoWriters).1 orderlyWrites _ rfl).2 rfl h

/-- **Two writers may swap the samples of a host**: the sample enqueued second is written
first, and the rates of the first one are computed against it. -/
theorem writers_swap : ∃ s,
    Runs.run (step twoWriters) (start twoWriters) overtakingWrites = some s ∧
    s.enqueued = [⟨0, diskRecord 50 0⟩, ⟨1, diskRecord 100 1⟩] ∧
    s.written = [⟨1, diskRecord 100 1⟩, ⟨0, diskRecord 50 0⟩] ∧
    ¬InOrder HostMonitoringData.hostName s ∧
    (MysqlWriter.writeAll .exact .init (s.written.map Sample.data)).map
        (fun w => (w.2.head?.bind fun i => i.row.lookup "disk_util_percent_rate")) =
      [some (.num 0), some (.num (-1 / 2))] := by
  refine ⟨_, rfl, rfl, rfl, fun h => ?_, ?_⟩
  · have := h "web_10.0.0.1"
    revert this
    decide +kernel
  · decide +kernel

end WriteQueue

end MonitorSystem
