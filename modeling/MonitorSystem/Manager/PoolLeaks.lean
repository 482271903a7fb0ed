import MonitorSystem.Manager.PoolGuards

/-!
# Leaked connections of the MySQL pool

Over its whole life – it may be stopped and started again, and a guard may outlive the pool
it came from – the MySQL pool closes every connection before it forgets it, with one
exception: `healthLoop` reconnects an idle entry that is marked unhealthy without closing the
connection the entry still has. `release` leaves such entries behind.

`unleaked_iff` makes that exact. In a run, every open connection is one entry's at all times
if and only if no health pass comes upon an idle unhealthy entry that has a connection.
-/

namespace MonitorSystem

open Handles (Server Tracked)

namespace ConnectionPool

variable {c : PoolConfig} {s t : ConnectionPool}

/-- **No connection is leaked**, for a pool constructed with these sizes. -/
structure Unleaked (minSize maxSize : ℤ) (s : ConnectionPool) : Prop where
  /-- Every open connection is referenced by exactly one entry. -/
  referenced : ∀ conn ∈ s.server.opened, s.entries.countP (·.conn = some conn) = 1
  bounded : (s.server.opened.length : ℤ) ≤ max 0 (max minSize maxSize)
  /-- Before `start` and after `stop`, none is open. -/
  stopped : s.running = false → s.stopping = false → s.server.opened = []

/-- The invariant of a pool that has lost no connection yet. -/
structure Clean (c : PoolConfig) (s : ConnectionPool) : Prop where
  tracked : Tracked s.server (conns s.entries) []
  bounded : s.entries.length ≤ c.maxSize
  stopped : s.running = false → s.stopping = false → s.entries = []

/-- What a health pass must not come upon: an idle entry that is unhealthy and still has a
connection. -/
def PassClean (s : ConnectionPool) : Action → Prop
  | .healthPass _ _ =>
    s.running = true → ∀ e ∈ s.entries, e.inUse = false → e.healthy = false → e.conn = none
  | _ => True

theorem countP_conn_eq (es : List Entry) (conn : ℕ) :
    es.countP (·.conn = some conn) = (conns es).count (some conn) := by
  rw [conns, List.count, List.countP_map]
  exact List.countP_congr fun e _ => by simp

theorem Clean.unleaked {minSize maxSize idleTtl : ℤ}
    (h : s.Clean (.make minSize maxSize idleTtl)) : s.Unleaked minSize maxSize := by
  refine ⟨fun conn hconn => ?_, ?_, fun hrun hstop => ?_⟩
  · rw [countP_conn_eq]
    refine h.tracked.count_eq_one ?_
    have hmem := h.tracked.perm.mem_iff.mp hconn
    simpa [List.reduceOption_mem_iff] using hmem
  · have hlen := h.tracked.length_opened_le
    have hb := h.bounded
    simp only [conns, List.length_map, List.length_nil, PoolConfig.make] at hlen hb
    omega
  · have hlen := h.tracked.length_opened_le
    rw [h.stopped hrun hstop] at hlen
    simpa using hlen

/-- Only the connections of the entries matter, and whether the pool is stopped. -/
theorem Clean.of_conns_eq (h : s.Clean c) (hconns : conns t.entries = conns s.entries)
    (hserver : t.server = s.server) (hrun : t.running = s.running)
    (hstop : t.stopping = s.stopping) : t.Clean c := by
  have hlen : t.entries.length = s.entries.length := by
    simpa [conns] using congrArg List.length hconns
  refine ⟨?_, hlen ▸ h.bounded, fun hr hs => List.eq_nil_of_length_eq_zero ?_⟩
  · rw [hconns, hserver]
    exact h.tracked
  · rw [hlen, h.stopped (hrun ▸ hr) (hstop ▸ hs), List.length_nil]

theorem Clean.releaseGuard (h : s.Clean c) (b : Backend) (g : Guard) (errno : Bool) (now : ℤ)
    (guards : List Guard) : Clean c { s.releaseGuard b g errno now with guards := guards } := by
  refine h.of_conns_eq ?_ ?_ ?_ ?_
  · unfold ConnectionPool.releaseGuard
    split
    · exact conns_releaseEntry b s g.index g.healthy errno now
    · rfl
  all_goals
    unfold ConnectionPool.releaseGuard releaseEntry
    split
    · split <;> rfl
    · rfl

/-- A pass of `acquire`, whatever becomes of the guards. -/
theorem Clean.acquire (h : s.Clean c) (hrun : s.running = true) (a : Answers)
    (guards : List Guard) : Clean c { s with
      entries := (acquireEntry c a s.entries s.server).1.1
      server := (acquireEntry c a s.entries s.server).1.2
      guards := guards } :=
  ⟨tracked_acquireEntry c a h.tracked, length_acquireEntry_le h.bounded,
    fun hr => absurd (hrun.symm.trans hr) Bool.noConfusion⟩

/-- A health pass that comes upon no idle unhealthy entry with a connection. -/
theorem Clean.healthPass {a : Answers} {now : ℤ} (h : s.Clean c) (hrun : s.running = true)
    (hpass : s.PassClean (.healthPass a now)) : Clean c { s with
      entries := (healthRound .mysql c a now s.entries s.server).1
      server := (healthRound .mysql c a now s.entries s.server).2 } := by
  have hkept := kept_healthRound .mysql c a now s.entries s.server
  have hnone : s.entries.flatMap (·.overwritten .mysql) = [] := by
    refine List.flatMap_eq_nil_iff.mpr fun e he => ?_
    simp only [Entry.overwritten]
    split
    · next hbad => simp [hpass hrun e he (by simpa using hbad.1) (by simpa using hbad.2)]
    · rfl
  have htracked := tracked_healthRound .mysql c a now h.tracked
  rw [hnone] at htracked
  exact ⟨htracked, hkept.length_eq ▸ h.bounded,
    fun hr => absurd (hrun.symm.trans hr) Bool.noConfusion⟩

/-- **Every step keeps the invariant**, but for a health pass that comes upon an idle
unhealthy entry with a connection. -/
theorem Clean.step {act : Action} (h : s.Clean c) (hact : s.PassClean act)
    (hstep : s.step .mysql c act = some t) : t.Clean c := by
  cases stepped_of_step hstep with
  | stays => exact h
  | @starts a hrun hstop =>
    -- a pool that is not running and not being stopped has no entries
    have hnil : s.entries = [] := h.stopped hrun hstop
    have htracked : Tracked s.server [] [] := by simpa [hnil] using h.tracked
    refine ⟨?_, ?_, fun hr => by cases hr⟩
    · simpa [hnil] using tracked_startEntries a 0 c.minSize htracked
    · simpa [hnil, length_startEntries] using c.minSize_le
  | refuses => exact h.of_conns_eq rfl rfl rfl rfl
  | acquires index conn hrun => exact h.acquire hrun _ _
  | waits hrun => exact h.acquire hrun _ _
  | moveConstructs => exact h.of_conns_eq rfl rfl rfl rfl
  | moveAssigns => exact h.releaseGuard _ _ _ _ _
  | marksUnhealthy => exact h.of_conns_eq rfl rfl rfl rfl
  | releases => exact h.releaseGuard _ _ _ _ _
  | passes hrun => exact h.healthPass hrun hact
  | stopBegins => exact ⟨h.tracked, h.bounded, fun _ hs => by cases hs⟩
  | stopEnds =>
    have htracked : Tracked s.server (conns s.entries ++ []) [] := by simpa using h.tracked
    exact ⟨tracked_closeEntries htracked, Nat.zero_le _, fun _ _ => rfl⟩

/-- A health pass over an idle unhealthy entry with a connection loses that connection. -/
theorem Clean.not_unleaked {minSize maxSize : ℤ} {act : Action} (h : s.Clean c)
    (hact : ¬s.PassClean act) :
    ∃ t, s.step .mysql c act = some t ∧ ¬t.Unleaked minSize maxSize := by
  cases act with
  | healthPass a now =>
    simp only [PassClean, not_forall] at hact
    obtain ⟨hrun, e, he, hidle, hunhealthy, hconn⟩ := hact
    obtain ⟨conn, hconn⟩ := Option.ne_none_iff_exists'.mp hconn
    have htracked := tracked_healthRound .mysql c a now h.tracked
    have hlost : conn ∈ s.entries.flatMap (·.overwritten .mysql) ++ [] := by
      rw [List.append_nil]
      exact List.mem_flatMap.mpr ⟨e, he, by simp [Entry.overwritten, hidle, hunhealthy, hconn]⟩
    refine ⟨_, by simp [ConnectionPool.step, hrun]; rfl, fun hun => ?_⟩
    have hopened := htracked.perm.mem_iff.mpr (List.mem_append_right _ hlost)
    have hone := hun.referenced conn hopened
    rw [countP_conn_eq, List.count_eq_zero_of_not_mem (htracked.notMem_of_mem_lost hlost)] at hone
    cases hone
  | _ => exact absurd trivial hact

/-- **Exactly when the MySQL pool leaks**: along a run, every open connection is always
referenced by exactly one entry, never more of them are open than the sizes allow and none
outside `start` and `stop`, if and only if no health pass of the run comes upon an idle entry
that is marked unhealthy and still has its connection. -/
theorem unleaked_iff (minSize maxSize idleTtl : ℤ) (acts : List Action) :
    Runs.Throughout (step .mysql (.make minSize maxSize idleTtl)) (Unleaked minSize maxSize) {}
        acts ↔
      Runs.Along (step .mysql (.make minSize maxSize idleTtl)) PassClean {} acts := by
  refine Runs.throughout_iff_along (I := Clean (.make minSize maxSize idleTtl))
    (L := fun _ => True) (fun s h => h.unleaked) (fun s act t _ h hact hs => h.step hact hs)
    (fun s act _ h hact => h.not_unleaked hact) (fun _ _ => trivial) ?_
  exact ⟨Tracked.init, Nat.zero_le _, fun _ _ => rfl⟩

/-- A connection comes back with an error, and the next health pass leaks it: two connections
are open in a pool of one. -/
theorem leaks_after_error :
    ∃ s, Runs.run (step .mysql (.make 1 1 60)) {}
        [.start .ok, .acquire .ok false, .release 0 true 5, .healthPass .ok 10] = some s ∧
      s.server.opened = [1, 0] ∧ s.entries.map (·.conn) = [some 1] ∧ ¬s.Unleaked 1 1 :=
  ⟨_, rfl, rfl, rfl, fun h => absurd (h.referenced 0 (by decide)) (by decide)⟩

end ConnectionPool

end MonitorSystem
