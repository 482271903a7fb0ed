import MonitorSystem.Library.Lists
import MonitorSystem.Manager.ConnectionPool

/-!
# Exclusive use of pooled connections

Between `start` and `stop`, a connection of a pool is used by one guard at a time. The
invariant behind it compares two lists: what the guards hold, and what the entries are
marked with. They are the same up to order (`ConnectionPool.Sound.held`), so guards and
entries in use correspond one to one, and `Handles.Tracked` – two entries never have the
same connection – does the rest.

The loops of the pool only change idle entries (`Kept`), which is why no connection in use
is ever closed or replaced; `acquire` adds one entry to those in use, `release` takes one
away, and moving a guard does neither.
-/

namespace MonitorSystem

open Handles (Server Tracked)

/-! ### The entries in use -/

/-- The entries in use: the index and the connection of each. -/
def usage : ℕ → List Entry → List (ℕ × Option ℕ)
  | _, [] => []
  | index, e :: es =>
    if e.inUse then (index, e.conn) :: usage (index + 1) es else usage (index + 1) es

theorem usage_cons_of_inUse {e : Entry} (h : e.inUse = true) (index : ℕ) (es : List Entry) :
    usage index (e :: es) = (index, e.conn) :: usage (index + 1) es := by
  simp [usage, h]

theorem usage_cons_of_idle {e : Entry} (h : e.inUse = false) (index : ℕ) (es : List Entry) :
    usage index (e :: es) = usage (index + 1) es := by
  simp [usage, h]

theorem le_of_mem_usage {index : ℕ} {es : List Entry} {x : ℕ × Option ℕ}
    (h : x ∈ usage index es) : index ≤ x.1 := by
  induction es generalizing index with
  | nil => simp [usage] at h
  | cons e es ih =>
    cases huse : e.inUse with
    | true =>
      rw [usage_cons_of_inUse huse] at h
      rcases List.mem_cons.mp h with rfl | h
      · exact le_rfl
      · exact Nat.le_of_succ_le (ih h)
    | false =>
      rw [usage_cons_of_idle huse] at h
      exact Nat.le_of_succ_le (ih h)

theorem mem_usage (index : ℕ) {es : List Entry} {i : ℕ} {conn : Option ℕ} :
    (index + i, conn) ∈ usage index es ↔
      ∃ e, es[i]? = some e ∧ e.inUse = true ∧ e.conn = conn := by
  induction es generalizing index i with
  | nil => simp [usage]
  | cons e es ih =>
    have htail : (index + (i - 1) + 1, conn) ∈ usage (index + 1) es ↔
        ∃ e, es[i - 1]? = some e ∧ e.inUse = true ∧ e.conn = conn := by
      rw [← ih (index + 1), Nat.add_right_comm]
    cases i with
    | zero =>
      have hnot : (index, conn) ∉ usage (index + 1) es := fun h =>
        absurd (le_of_mem_usage h) (Nat.not_succ_le_self _)
      cases huse : e.inUse <;> simp [usage, huse, hnot, @eq_comm _ conn]
    | succ i =>
      have hne : index + i + 1 ≠ index := by omega
      simp only [Nat.add_sub_cancel] at htail
      rw [← Nat.add_assoc, List.getElem?_cons_succ, ← htail]
      cases huse : e.inUse <;> simp [usage, huse, hne]

/-- No index comes up twice. -/
theorem usage_pairwise (index : ℕ) (es : List Entry) :
    (usage index es).Pairwise fun x y => x.1 ≠ y.1 := by
  induction es generalizing index with
  | nil => exact List.Pairwise.nil
  | cons e es ih =>
    cases huse : e.inUse with
    | true =>
      rw [usage_cons_of_inUse huse]
      refine List.pairwise_cons.mpr ⟨fun x hx => ?_, ih (index + 1)⟩
      have := le_of_mem_usage hx
      simp only
      omega
    | false =>
      rw [usage_cons_of_idle huse]
      exact ih (index + 1)

/-- One more entry at the end. -/
theorem usage_append_singleton (index : ℕ) (es : List Entry) (e : Entry) :
    usage index (es ++ [e]) =
      usage index es ++ if e.inUse then [(index + es.length, e.conn)] else [] := by
  induction es generalizing index with
  | nil => simp [usage]
  | cons d es ih =>
    have hlen : index + 1 + es.length = index + (es.length + 1) := by omega
    cases huse : d.inUse <;>
      simp [usage, huse, ih (index + 1), hlen]

/-- Marking an entry as idle takes it out of those in use. -/
theorem usage_set_perm (index : ℕ) {i : ℕ} {es : List Entry} {e e' : Entry} (he : es[i]? = some e)
    (huse : e.inUse = true) (hidle : e'.inUse = false) :
    (usage index es).Perm ((index + i, e.conn) :: usage index (es.set i e')) := by
  induction es generalizing index i with
  | nil => simp at he
  | cons d es ih =>
    cases i with
    | zero =>
      obtain rfl : d = e := by simpa using he
      rw [List.set_cons_zero, usage_cons_of_inUse huse, usage_cons_of_idle hidle]
      exact List.Perm.refl _
    | succ i =>
      have htail := ih (index + 1) (by simpa using he)
      have hsucc : index + 1 + i = index + (i + 1) := by omega
      rw [List.set_cons_succ]
      cases hd : d.inUse with
      | true =>
        rw [usage_cons_of_inUse hd, usage_cons_of_inUse hd, ← hsucc]
        exact (htail.cons _).trans (List.Perm.swap _ _ _)
      | false =>
        rw [usage_cons_of_idle hd, usage_cons_of_idle hd, ← hsucc]
        exact htail

/-! ### What the loops keep -/

/-- A healthy entry has a connection. -/
def Entry.Sound (e : Entry) : Prop := e.healthy = true → e.conn.isSome = true

/-- What a loop may do with an entry: nothing, unless it is idle, and then it stays idle. -/
def Entry.Serviced (e e' : Entry) : Prop :=
  e' = e ∨ e.inUse = false ∧ e'.inUse = false ∧ (e.Sound → e'.Sound)

/-- What a loop over the entries from an index on keeps. -/
structure Kept (index : ℕ) (es es' : List Entry) : Prop where
  length_eq : es'.length = es.length
  sound : (∀ e ∈ es, e.Sound) → ∀ e ∈ es', e.Sound
  usage_eq : usage index es' = usage index es

namespace Kept

theorem refl (index : ℕ) (es : List Entry) : Kept index es es := ⟨rfl, fun h => h, rfl⟩

theorem trans {index : ℕ} {es es' es'' : List Entry} (h : Kept index es es')
    (h' : Kept index es' es'') : Kept index es es'' :=
  ⟨h'.length_eq.trans h.length_eq, fun hs => h'.sound (h.sound hs),
    h'.usage_eq.trans h.usage_eq⟩

theorem cons {index : ℕ} {e e' : Entry} {es es' : List Entry} (he : e.Serviced e')
    (h : Kept (index + 1) es es') : Kept index (e :: es) (e' :: es') := by
  refine ⟨by simp [h.length_eq], fun hs d hd => ?_, ?_⟩
  · rcases List.mem_cons.mp hd with rfl | hd
    · rcases he with rfl | ⟨-, -, hsound⟩
      · exact hs _ List.mem_cons_self
      · exact hsound (hs e List.mem_cons_self)
    · exact h.sound (fun d hd => hs d (List.mem_cons_of_mem e hd)) d hd
  · rcases he with rfl | ⟨hidle, hidle', -⟩
    · simp only [usage, h.usage_eq]
    · rw [usage_cons_of_idle hidle, usage_cons_of_idle hidle', h.usage_eq]

end Kept

section Loops

variable {b : Backend} {a : Answers} {now : ℤ} {e : Entry} {v : Server}

@[simp] theorem Entry.reconnected_inUse (ok : Bool) :
    (e.reconnected v ok).1.inUse = e.inUse := rfl

theorem Entry.sound_reconnected (ok : Bool) : (e.reconnected v ok).1.Sound := fun h => h

theorem serviced_closeEntry (h : e.inUse = false) : e.Serviced (closeEntry e v).1 :=
  Or.inr ⟨h, rfl, fun _ h => by cases h⟩

theorem serviced_reconnected (ok : Bool) (h : e.inUse = false) :
    e.Serviced (e.reconnected v ok).1 :=
  Or.inr ⟨h, h, fun _ => Entry.sound_reconnected ok⟩

theorem serviced_tryEntry {index : ℕ} (h : e.inUse = false) :
    e.Serviced (tryEntry a index e v).1 := by
  unfold tryEntry
  split
  · exact Or.inl rfl
  · unfold ensureHealthy
    split
    · exact serviced_reconnected _ h
    · next hconn =>
      split
      · exact Or.inr ⟨h, h, fun _ _ => Option.isSome_iff_ne_none.mpr hconn⟩
      · exact Or.inr ⟨h, rfl, fun _ => Entry.sound_reconnected _⟩

theorem serviced_checkEntry {index : ℕ} : e.Serviced (checkEntry b a now index e v).1 := by
  unfold checkEntry
  split
  · exact Or.inl rfl
  · next huse =>
    have hidle : e.inUse = false := by simpa using huse
    cases b with
    | mysql =>
      dsimp only
      split
      · exact Or.inr ⟨hidle, hidle, fun _ => Entry.sound_reconnected _⟩
      · split
        · exact Or.inl rfl
        · exact serviced_closeEntry hidle
    | redis =>
      dsimp only
      split
      · exact Or.inr ⟨hidle, hidle, fun _ => Entry.sound_reconnected _⟩
      · next hconn =>
        split
        · exact Or.inr ⟨hidle, hidle, fun _ _ => Option.isSome_iff_ne_none.mpr hconn⟩
        · exact serviced_closeEntry hidle

theorem kept_checkEntries (b : Backend) (a : Answers) (now : ℤ) (index : ℕ) (es : List Entry)
    (v : Server) : Kept index es (checkEntries b a now index es v).1 := by
  induction es generalizing index v with
  | nil => exact Kept.refl _ _
  | cons e es ih => exact Kept.cons serviced_checkEntry (ih _ _)

theorem kept_reapEntries (c : PoolConfig) (now : ℤ) (opened index : ℕ) (es : List Entry)
    (v : Server) : Kept index es (reapEntries c now opened es v).1 := by
  induction es generalizing index opened v with
  | nil => exact Kept.refl _ _
  | cons e es ih =>
    simp only [reapEntries]
    split
    · exact Kept.refl _ _
    · split
      · next hreap =>
        exact Kept.cons (serviced_closeEntry (by simpa using hreap.1)) (ih _ _ _)
      · exact Kept.cons (Or.inl rfl) (ih _ _ _)

/-- **A health round leaves the entries in use alone.** -/
theorem kept_healthRound (b : Backend) (c : PoolConfig) (a : Answers) (now : ℤ)
    (es : List Entry) (v : Server) : Kept 0 es (healthRound b c a now es v).1 :=
  (kept_checkEntries b a now 0 es v).trans (kept_reapEntries c now _ 0 _ _)

/-- What a pass of `acquire` may do: keep the entries in use, or add the one it hands
out. -/
structure Acquired (index : ℕ) (es es' : List Entry) (found : Option (ℕ × Option ℕ)) : Prop where
  sound : (∀ e ∈ es, e.Sound) → ∀ e ∈ es', e.Sound
  usage_perm : (usage index es').Perm (found.toList ++ usage index es)
  isSome : (∀ e ∈ es, e.Sound) → ∀ held ∈ found, held.2.isSome = true

theorem Kept.acquired {index : ℕ} {es es' : List Entry} (h : Kept index es es') :
    Acquired index es es' none :=
  ⟨h.sound, by simp [h.usage_eq], by simp⟩

theorem Acquired.cons {index : ℕ} {e e' : Entry} {es es' : List Entry}
    {found : Option (ℕ × Option ℕ)} (he : e.Serviced e')
    (h : Acquired (index + 1) es es' found) : Acquired index (e :: es) (e' :: es') found := by
  have hsound : (∀ d ∈ e :: es, d.Sound) → e.Sound ∧ ∀ d ∈ es, d.Sound := by simp
  refine ⟨fun hs d hd => ?_, ?_, fun hs => h.isSome (hsound hs).2⟩
  · rcases List.mem_cons.mp hd with rfl | hd
    · rcases he with rfl | ⟨-, -, hkeep⟩
      · exact (hsound hs).1
      · exact hkeep (hsound hs).1
    · exact h.sound (hsound hs).2 d hd
  · rcases he with rfl | ⟨hidle, hidle', -⟩
    · cases huse : e'.inUse with
      | true =>
        rw [usage_cons_of_inUse huse, usage_cons_of_inUse huse]
        exact (h.usage_perm.cons _).trans List.perm_middle.symm
      | false =>
        rw [usage_cons_of_idle huse, usage_cons_of_idle huse]
        exact h.usage_perm
    · rw [usage_cons_of_idle hidle, usage_cons_of_idle hidle']
      exact h.usage_perm

theorem length_acquireScan (a : Answers) (index : ℕ) (es : List Entry) (v : Server) :
    (acquireScan a index es v).1.1.length = es.length := by
  induction es generalizing index v with
  | nil => rfl
  | cons e es ih =>
    simp only [acquireScan]
    split
    · simp [ih]
    · split <;> simp [ih]

theorem acquired_acquireScan (a : Answers) (index : ℕ) (es : List Entry) (v : Server) :
    Acquired index es (acquireScan a index es v).1.1 (acquireScan a index es v).2 := by
  induction es generalizing index v with
  | nil => exact (Kept.refl _ _).acquired
  | cons e es ih =>
    simp only [acquireScan]
    split
    · exact Acquired.cons (Or.inl rfl) (ih _ _)
    · next huse =>
      have hidle : e.inUse = false := by simpa using huse
      have hserved : e.Serviced (tryEntry a index e v).1 := serviced_tryEntry hidle
      split
      · next hhealthy =>
        -- the entry is handed out, the others are as they were
        have htried : e.Sound → (tryEntry a index e v).1.Sound := by
          rcases hserved with heq | ⟨-, -, hkeep⟩
          · rw [heq]
            exact fun h => h
          · exact hkeep
        refine ⟨fun hs d hd => ?_, ?_, fun hs held hheld => ?_⟩
        · rcases List.mem_cons.mp hd with rfl | hd
          · exact htried (hs e List.mem_cons_self)
          · exact hs d (List.mem_cons_of_mem e hd)
        · rw [usage_cons_of_inUse rfl, usage_cons_of_idle hidle]
          exact List.Perm.refl _
        · obtain rfl : (index, (tryEntry a index e v).1.conn) = held := by simpa using hheld
          exact htried (hs e List.mem_cons_self) hhealthy
      · exact Acquired.cons hserved (ih _ _)

/-- **A pass of `acquire` adds the entry it hands out to those in use**, and that entry has a
connection. -/
theorem acquired_acquireEntry (c : PoolConfig) (a : Answers) (es : List Entry) (v : Server) :
    Acquired 0 es (acquireEntry c a es v).1.1 (acquireEntry c a es v).2 := by
  have hscan := acquired_acquireScan a 0 es v
  simp only [acquireEntry]
  split
  · next held hfound =>
    rw [hfound] at hscan
    exact hscan
  · next hfound =>
    rw [hfound] at hscan
    split
    · refine ⟨fun hs d hd => ?_, ?_, fun _ held hheld => ?_⟩
      · rcases List.mem_append.mp hd with hd | hd
        · exact hscan.sound hs d hd
        · obtain rfl := List.mem_singleton.mp hd
          exact fun h => h
      · rw [usage_append_singleton, Nat.zero_add]
        refine List.perm_append_comm.trans (List.Perm.append ?_ (by simpa using hscan.usage_perm))
        split <;> exact List.Perm.refl _
      · split at hheld
        · next hhealthy =>
          obtain rfl := Option.mem_some_iff.mp hheld
          exact Entry.sound_reconnected _ hhealthy
        · cases hheld
    · exact hscan

theorem length_acquireEntry_le {c : PoolConfig} {a : Answers} {es : List Entry} {v : Server}
    (h : es.length ≤ c.maxSize) : (acquireEntry c a es v).1.1.length ≤ c.maxSize := by
  have hscan := length_acquireScan a 0 es v
  simp only [acquireEntry]
  split
  · simpa [hscan] using h
  · split
    · next hroom =>
      rw [List.length_append]
      exact hroom
    · simpa [hscan] using h

theorem startEntries_idle (a : Answers) (index n : ℕ) (v : Server) :
    ∀ e ∈ (startEntries a index n v).1, e.inUse = false ∧ e.Sound := by
  induction n generalizing index v with
  | zero => simp [startEntries]
  | succ n ih =>
    intro e he
    rcases List.mem_cons.mp he with rfl | he
    · exact ⟨rfl, fun h => h⟩
    · exact ih _ _ e he

theorem length_startEntries (a : Answers) (index n : ℕ) (v : Server) :
    (startEntries a index n v).1.length = n := by
  induction n generalizing index v with
  | zero => rfl
  | succ n ih => simp [startEntries, ih]

theorem usage_eq_nil {index : ℕ} {es : List Entry} (h : ∀ e ∈ es, e.inUse = false) :
    usage index es = [] := by
  induction es generalizing index with
  | nil => rfl
  | cons e es ih =>
    rw [usage_cons_of_idle (h e List.mem_cons_self)]
    exact ih fun d hd => h d (List.mem_cons_of_mem e hd)

end Loops

/-! ### What the guards hold -/

/-- The entry and the connection a guard holds. -/
def Guard.holding (g : Guard) : List (ℕ × Option ℕ) :=
  if g.live then [(g.index, g.conn)] else []

@[simp] theorem Guard.holding_emptied (g : Guard) : g.emptied.holding = [] := rfl

theorem Guard.holding_of_live {g : Guard} (h : g.live = true) :
    g.holding = [(g.index, g.conn)] := if_pos h

namespace ConnectionPool

variable {b : Backend} {c : PoolConfig} {s t : ConnectionPool}

/-- What all guards hold. -/
def holdings (s : ConnectionPool) : List (ℕ × Option ℕ) := s.guards.flatMap Guard.holding

/-- The invariant of a running pool. -/
structure Sound (c : PoolConfig) (s : ConnectionPool) : Prop where
  tracked : ∃ lost, Tracked s.server (conns s.entries) lost
  /-- The guards hold exactly the entries in use. -/
  held : s.holdings.Perm (usage 0 s.entries)
  sound : ∀ e ∈ s.entries, e.Sound
  bounded : s.entries.length ≤ c.maxSize

/-- What becomes of a pool when it gets back what a guard holds. -/
structure Returned (g : Guard) (s t : ConnectionPool) : Prop where
  usage_perm : (usage 0 s.entries).Perm (g.holding ++ usage 0 t.entries)
  conns_eq : conns t.entries = conns s.entries
  sound : (∀ e ∈ s.entries, e.Sound) → ∀ e ∈ t.entries, e.Sound
  server_eq : t.server = s.server

@[simp] theorem releaseGuard_guards (g : Guard) (errno : Bool) (now : ℤ) :
    (s.releaseGuard b g errno now).guards = s.guards := by
  unfold releaseGuard releaseEntry
  split
  · split <;> rfl
  · rfl

theorem returned_releaseGuard {g : Guard} (errno : Bool) (now : ℤ)
    (h : ∀ x ∈ g.holding, x ∈ usage 0 s.entries) :
    Returned g s (s.releaseGuard b g errno now) := by
  unfold releaseGuard
  split
  · next hlive =>
    -- a live guard holds an entry that is in use, so the index is one of the vector's
    rw [Guard.holding_of_live hlive] at h
    have hmem : (0 + g.index, g.conn) ∈ usage 0 s.entries := by simpa using h
    obtain ⟨e, he, huse, hconn⟩ := (mem_usage 0).mp hmem
    have hsound : e.Sound → (e.released b g.healthy errno now).Sound := by
      unfold Entry.released
      split
      · exact fun _ h => by cases h
      · exact fun h => h
    have hconns := conns_releaseEntry b s g.index g.healthy errno now
    unfold releaseEntry at hconns ⊢
    rw [he] at hconns ⊢
    refine ⟨?_, hconns, fun hs d hd => ?_, rfl⟩
    · rw [Guard.holding_of_live hlive, ← hconn]
      simpa using usage_set_perm 0 he huse (Entry.released_inUse b g.healthy errno now)
    · rcases List.mem_or_eq_of_mem_set hd with hd | rfl
      · exact hs d hd
      · exact hsound (hs e (List.mem_of_getElem? he))
  · next hdead =>
    have hnil : g.holding = [] := if_neg hdead
    refine ⟨?_, rfl, fun h => h, rfl⟩
    rw [hnil]
    exact List.Perm.refl _

/-- A guard of a sound pool holds entries in use only. -/
theorem Sound.mem_usage_of_mem_holding (h : s.Sound c) {g : Guard} (hg : g ∈ s.guards) :
    ∀ x ∈ g.holding, x ∈ usage 0 s.entries := fun _ hx =>
  h.held.mem_iff.mp (List.mem_flatMap.mpr ⟨g, hg, hx⟩)

/-! ### What an operation does -/

/-- What the operations of a running pool are. -/
def Action.isOperation : Action → Bool
  | .start _ | .stopBegin | .stopEnd => false
  | _ => true

/-- **What an operation does**: it hands out an entry, or none, or it gets one back. -/
inductive Effect (c : PoolConfig) (s t : ConnectionPool) : Prop
  | handsOut (found : Option (ℕ × Option ℕ)) (hacq : Acquired 0 s.entries t.entries found)
      (hheld : t.holdings.Perm (found.toList ++ s.holdings))
      (htracked : ∃ lost, Tracked t.server (conns t.entries) lost)
      (hlen : t.entries.length ≤ c.maxSize)
  | getsBack (g : Guard) (hret : Returned g s t)
      (hheld : (g.holding ++ t.holdings).Perm s.holdings)

/-- An operation that only moves guards about. -/
theorem Sound.effect_of_guards (h : s.Sound c) {guards : List Guard}
    (hheld : (guards.flatMap Guard.holding).Perm s.holdings) :
    Effect c s { s with guards := guards } :=
  .handsOut none (Kept.refl 0 s.entries).acquired hheld h.tracked h.bounded

/-- An operation that hands out the entry it has found, if it has found one. -/
theorem Sound.effect_acquire {a : Answers} (h : s.Sound c) {guards : List Guard}
    (hheld : (guards.flatMap Guard.holding).Perm
      ((acquireEntry c a s.entries s.server).2.toList ++ s.holdings)) :
    Effect c s { s with
      entries := (acquireEntry c a s.entries s.server).1.1
      server := (acquireEntry c a s.entries s.server).1.2
      guards := guards } := by
  obtain ⟨lost, htracked⟩ := h.tracked
  exact .handsOut _ (acquired_acquireEntry c a s.entries s.server) hheld
    ⟨lost, tracked_acquireEntry c a htracked⟩ (length_acquireEntry_le h.bounded)

/-- An operation that releases a guard. -/
theorem Sound.effect_releaseGuard (h : s.Sound c) {g : Guard} (hg : g ∈ s.guards)
    {errno : Bool} {now : ℤ} {guards : List Guard}
    (hheld : (g.holding ++ guards.flatMap Guard.holding).Perm s.holdings) :
    Effect c s { s.releaseGuard b g errno now with guards := guards } := by
  have hret := returned_releaseGuard (b := b) errno now (h.mem_usage_of_mem_holding hg)
  exact .getsBack g ⟨hret.usage_perm, hret.conns_eq, hret.sound, hret.server_eq⟩ hheld

/-- **The effect of every operation** on a pool that satisfies the invariant. -/
theorem Sound.effect {act : Action} (h : s.Sound c) (hact : act.isOperation = true)
    (hstep : s.step b c act = some t) : Effect c s t := by
  cases stepped_of_step hstep with
  | stays => exact h.effect_of_guards (List.Perm.refl _)
  | starts => cases hact
  | stopBegins => cases hact
  | stopEnds => cases hact
  | refuses => exact h.effect_of_guards (by simp [holdings, Guard.holding, Guard.live])
  | @acquires a _ index conn _ hfound =>
    refine h.effect_acquire ?_
    have hacq := acquired_acquireEntry c a s.entries s.server
    rw [hfound] at hacq ⊢
    have hconn : conn.isSome = true := hacq.isSome h.sound (index, conn) rfl
    have hnew : (⟨true, index, conn, true⟩ : Guard).holding = [(index, conn)] :=
      Guard.holding_of_live (by simpa [Guard.live] using hconn)
    simp only [holdings, List.flatMap_append, List.flatMap_singleton, hnew]
    exact List.perm_append_comm
  | @waits _ timedOut _ hfound =>
    refine h.effect_acquire ?_
    rw [hfound]
    cases timedOut <;> simp [holdings, Guard.holding, Guard.live]
  | moveConstructs g hg =>
    refine h.effect_of_guards ?_
    have hset := Lists.flatMap_set_perm (f := Guard.holding) g.emptied hg
    simp only [List.flatMap_append, List.flatMap_singleton]
    exact List.perm_append_comm.trans (by simpa [holdings] using hset)
  | @moveAssigns slot other _ _ g g' hg hg' hne =>
    refine h.effect_releaseGuard (List.mem_of_getElem? hg) ?_
    -- the guard assigned to gives up `g`, and what `g'` held changes places
    have hset := Lists.flatMap_set_perm (f := Guard.holding) g' hg
    have hother : (s.guards.set slot g')[other]? = some g' := by
      rw [List.getElem?_set_ne hne]
      exact hg'
    have hset' := Lists.flatMap_set_perm (f := Guard.holding) g'.emptied hother
    simp only [Guard.holding_emptied, List.nil_append] at hset'
    have hboth := (hset'.append_left g.holding).trans hset
    rw [releaseGuard_guards]
    refine (List.perm_append_left_iff g'.holding).mp (List.Perm.trans ?_ hboth)
    exact List.perm_append_comm_assoc _ _ _
  | marksUnhealthy g hg =>
    refine h.effect_of_guards ?_
    have hset := Lists.flatMap_set_perm (f := Guard.holding) { g with healthy := false } hg
    exact (List.perm_append_left_iff g.holding).mp hset
  | releases g hg =>
    refine h.effect_releaseGuard (List.mem_of_getElem? hg) ?_
    simpa [holdings] using Lists.flatMap_set_perm (f := Guard.holding) g.emptied hg
  | @passes a now =>
    obtain ⟨lost, htracked⟩ := h.tracked
    have hkept := kept_healthRound b c a now s.entries s.server
    exact .handsOut none hkept.acquired (List.Perm.refl _)
      ⟨_, tracked_healthRound b c a now htracked⟩ (hkept.length_eq ▸ h.bounded)

/-- **Every operation keeps the invariant.** -/
theorem Sound.step {act : Action} (h : s.Sound c) (hact : act.isOperation = true)
    (hstep : s.step b c act = some t) : t.Sound c := by
  rcases h.effect hact hstep with ⟨found, hacq, hheld, htracked, hlen⟩ | ⟨g, hret, hheld⟩
  · refine ⟨htracked, ?_, hacq.sound h.sound, hlen⟩
    exact hheld.trans ((h.held.append_left _).trans hacq.usage_perm.symm)
  · obtain ⟨lost, htracked⟩ := h.tracked
    refine ⟨⟨lost, ?_⟩, ?_, hret.sound h.sound, ?_⟩
    · rwa [hret.conns_eq, hret.server_eq]
    · exact (List.perm_append_left_iff _).mp ((hheld.trans h.held).trans hret.usage_perm)
    · have hlen := congrArg List.length hret.conns_eq
      simp only [conns, List.length_map] at hlen
      exact hlen ▸ h.bounded

/-- The pool after `start`. -/
theorem sound_start {a : Answers} (hstep : ConnectionPool.step b c {} (.start a) = some t) :
    t.Sound c := by
  obtain rfl : ConnectionPool.mk true false (startEntries a 0 c.minSize {}).1 []
      (startEntries a 0 c.minSize {}).2 = t := by
    simpa [ConnectionPool.step] using hstep
  have hidle := startEntries_idle a 0 c.minSize {}
  refine ⟨⟨[], ?_⟩, ?_, fun e he => (hidle e he).2, ?_⟩
  · simpa using tracked_startEntries a 0 c.minSize Tracked.init
  · rw [usage_eq_nil fun e he => (hidle e he).1]
    exact List.Perm.refl _
  · rw [length_startEntries]
    exact c.minSize_le

/-! ### Exclusive use -/

/-- A live guard holds the connection of its entry, and that is open. -/
def Holds (s : ConnectionPool) (g : Guard) : Prop :=
  ∃ e conn, s.entries[g.index]? = some e ∧ e.conn = some conn ∧ g.conn = some conn ∧
    conn ∈ s.server.opened

/-- **Exclusive use**, for a pool constructed with these sizes. -/
structure Exclusive (minSize maxSize : ℤ) (s : ConnectionPool) : Prop where
  /-- Two live guards hold different entries and different connections. -/
  distinct : s.guards.Pairwise fun g h =>
    g.live = true → h.live = true → g.index ≠ h.index ∧ g.conn ≠ h.conn
  holds : ∀ g ∈ s.guards, g.live = true → s.Holds g
  healthy : ∀ e ∈ s.entries, e.healthy = true → e.conn ≠ none
  /-- An entry is marked exactly when a live guard holds it. -/
  inUse : ∀ i e, s.entries[i]? = some e →
    (e.inUse = true ↔ ∃ g ∈ s.guards, g.live = true ∧ g.index = i)
  bounded : (s.entries.length : ℤ) ≤ max 0 (max minSize maxSize)

/-- What is in use before an operation has its connection, still open, after it. -/
def Undisturbed (s t : ConnectionPool) : Prop := ∀ g ∈ s.guards, g.live = true → t.Holds g

theorem conns_of_mem_usage {es : List Entry} {x : ℕ × Option ℕ} (hx : x ∈ usage 0 es) :
    (conns es)[x.1]? = some x.2 := by
  have hx' : (0 + x.1, x.2) ∈ usage 0 es := by simpa using hx
  obtain ⟨e, he, -, hconn⟩ := (mem_usage 0).mp hx'
  simp [conns, he, hconn]

theorem holds_of_conns {lost : List ℕ} (htracked : Tracked s.server (conns s.entries) lost)
    {g : Guard} (hlive : g.live = true) (hg : (conns s.entries)[g.index]? = some g.conn) :
    s.Holds g := by
  have hsome : g.conn.isSome = true := by
    simp only [Guard.live, Bool.and_eq_true] at hlive
    exact hlive.2
  obtain ⟨conn, hc⟩ := Option.isSome_iff_exists.mp hsome
  rw [hc] at hg
  obtain ⟨e, he, hce⟩ : ∃ e, s.entries[g.index]? = some e ∧ e.conn = some conn := by
    simpa [conns] using hg
  exact ⟨e, conn, he, hce, hc, htracked.mem_opened (List.mem_of_getElem? hg)⟩

theorem Sound.mem_usage_of_live (h : s.Sound c) {g : Guard} (hg : g ∈ s.guards)
    (hlive : g.live = true) : (g.index, g.conn) ∈ usage 0 s.entries :=
  h.mem_usage_of_mem_holding hg _ (by simp [Guard.holding_of_live hlive])

theorem Sound.holds (h : s.Sound c) {g : Guard} (hg : g ∈ s.guards) (hlive : g.live = true) :
    s.Holds g := by
  obtain ⟨lost, htracked⟩ := h.tracked
  exact holds_of_conns htracked hlive (conns_of_mem_usage (h.mem_usage_of_live hg hlive))

theorem Sound.exclusive {minSize maxSize idleTtl : ℤ}
    (h : s.Sound (PoolConfig.make minSize maxSize idleTtl)) : s.Exclusive minSize maxSize := by
  obtain ⟨lost, htracked⟩ := h.tracked
  have hindex : s.guards.Pairwise fun g h => g.live = true → h.live = true → g.index ≠ h.index :=
    by
    have hpair : s.holdings.Pairwise fun x y => x.1 ≠ y.1 :=
      h.held.symm.pairwise (usage_pairwise 0 s.entries) fun hne => hne.symm
    refine (List.pairwise_flatMap.mp hpair).2.imp fun hgh hg hh => ?_
    simpa [Guard.holding_of_live hg, Guard.holding_of_live hh] using hgh
  refine ⟨?_, fun g hg hlive => h.holds hg hlive, fun e he hhealthy => ?_, fun i e he => ?_, ?_⟩
  · refine hindex.imp_of_mem fun {g g'} hg hg' hne hlive hlive' => ⟨hne hlive hlive', fun heq => ?_⟩
    obtain ⟨e, conn, he, hc, hgc, -⟩ := h.holds hg hlive
    obtain ⟨e', conn', he', hc', hgc', -⟩ := h.holds hg' hlive'
    have hslot : (conns s.entries)[g.index]? = some (some conn) := by simp [conns, he, hc]
    have hslot' : (conns s.entries)[g'.index]? = some (some conn') := by simp [conns, he', hc']
    refine htracked.ne_of_ne (hne hlive hlive') hslot hslot' ?_
    exact Option.some.inj (hgc.symm.trans (heq.trans hgc'))
  · exact Option.isSome_iff_ne_none.mp (h.sound e he hhealthy)
  · constructor
    · intro huse
      have hmem : (0 + i, e.conn) ∈ usage 0 s.entries := (mem_usage 0).mpr ⟨e, he, huse, rfl⟩
      obtain ⟨g, hg, hx⟩ := List.mem_flatMap.mp (h.held.mem_iff.mpr hmem)
      unfold Guard.holding at hx
      split at hx
      · next hlive =>
        have hi : i = g.index := by
          have := List.mem_singleton.mp hx
          simpa using congrArg Prod.fst this
        exact ⟨g, hg, hlive, hi.symm⟩
      · cases hx
    · rintro ⟨g, hg, hlive, rfl⟩
      have hmem := h.mem_usage_of_live hg hlive
      rw [← Nat.zero_add g.index] at hmem
      obtain ⟨d, hd, huse, -⟩ := (mem_usage 0).mp hmem
      obtain rfl : e = d := Option.some.inj (he.symm.trans hd)
      exact huse
  · have hb := h.bounded
    simp only [PoolConfig.make] at hb
    omega

/-- No operation closes or replaces a connection in use. -/
theorem Sound.undisturbed {act : Action} (h : s.Sound c) (hact : act.isOperation = true)
    (hstep : s.step b c act = some t) : s.Undisturbed t := by
  intro g hg hlive
  obtain ⟨lost, htracked⟩ := (h.step hact hstep).tracked
  have hmem := h.mem_usage_of_live hg hlive
  refine holds_of_conns htracked hlive ?_
  rcases h.effect hact hstep with ⟨found, hacq, -, -, -⟩ | ⟨g', hret, -⟩
  · -- what was in use still is
    exact conns_of_mem_usage (hacq.usage_perm.mem_iff.mpr (List.mem_append_right _ hmem))
  · rw [hret.conns_eq]
    exact conns_of_mem_usage hmem

/-- **Pooled connections are used exclusively**: after `start`, whatever is done to the pool
and its guards, whatever the server answers, every live guard has an entry and an open
connection of its own, and no operation disturbs it. -/
theorem exclusive_of_run (b : Backend) (minSize maxSize idleTtl : ℤ) (a : Answers)
    (acts : List Action) (hacts : ∀ act ∈ acts, act.isOperation = true) (s : ConnectionPool)
    (hrun : Runs.run (step b (.make minSize maxSize idleTtl)) {} (.start a :: acts) = some s) :
    s.Exclusive minSize maxSize ∧
      ∀ act t, act.isOperation = true → s.step b (.make minSize maxSize idleTtl) act = some t →
        s.Undisturbed t := by
  obtain ⟨u, hu, hrun⟩ := Runs.run_cons_iff.mp hrun
  have hsound : s.Sound (.make minSize maxSize idleTtl) :=
    Runs.run_invariant_along (G := fun _ act => act.isOperation = true)
      (fun s act t h hact hstep => h.step hact hstep) (sound_start hu)
      (Runs.along_of_forall hacts) hrun
  exact ⟨hsound.exclusive, fun act t hact hstep => hsound.undisturbed hact hstep⟩

/-- Two guards, one of them moved, and a connection that comes back with an error. -/
theorem exclusive_of_run_two :
    ∃ s, Runs.run (step .mysql (.make 1 2 60)) {}
        [.start .ok, .acquire .ok false, .acquire .ok false, .moveConstruct 0,
          .release 1 true 5, .healthPass .ok 10] = some s ∧
      s.Exclusive 1 2 := by
  obtain ⟨s, hs⟩ : ∃ s, Runs.run (step .mysql (.make 1 2 60)) {}
      [.start .ok, .acquire .ok false, .acquire .ok false, .moveConstruct 0,
        .release 1 true 5, .healthPass .ok 10] = some s := ⟨_, rfl⟩
  exact ⟨s, hs, (exclusive_of_run .mysql 1 2 60 _ _ (by decide) s hs).1⟩

end ConnectionPool

end MonitorSystem
