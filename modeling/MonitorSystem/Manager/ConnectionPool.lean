import MonitorSystem.Library.Handles
import MonitorSystem.Library.Runs
import Mathlib.Algebra.Order.Ring.Int

/-!
# The connection pools

`MysqlConnectionPool` and `RedisConnectionPool` (`manager/src/MysqlConnectionPool.cpp`,
`manager/src/RedisConnectionPool.cpp`). A pool keeps a vector of *entries*, each of which
has a connection or none; `acquire` hands one out as a `Guard`, which gives it back when it
is destroyed; and a thread of the pool checks the idle entries from time to time, reconnects
those without a connection and closes those that have been idle for too long.

Everything under one lock of the pool's mutex is one step: a pass of the loop of `acquire`
up to where it returns or waits, `release`, one round of `healthLoop`, and each of the two
halves of `stop`. What the server answers – whether a connect or a ping succeeds, which
error a connection reports – and what the clock shows are data of the step. A new
connection is a number the server has not given out before (`Handles.Server`). `Stepped`
lists what a step can do, and what is proved of every step is proved by its cases.

The two pools are written apart but agree in most functions. `Backend` says which of them is
meant where they do not: `checkEntry`, which reconnects or pings an idle entry, and
`Backend.broken`, which decides what becomes of an entry that is given back.
-/

namespace MonitorSystem

open Handles (Server)

/-- Which of the two pools. -/
inductive Backend where
  | mysql
  | redis
  deriving DecidableEq, Repr

/-- The sizes and the idle time a pool works with. -/
structure PoolConfig where
  /-- `minSize_`. -/
  minSize : ℕ
  /-- `maxSize_`. -/
  maxSize : ℕ
  minSize_le : minSize ≤ maxSize
  /-- `idleTtl_`. -/
  idleTtl : ℤ
  deriving DecidableEq, Repr

/-- The constructor of a pool: `minSize_` is at least zero and `maxSize_` at least
`minSize_`, whatever the arguments. -/
def PoolConfig.make (minSize maxSize idleTtl : ℤ) : PoolConfig where
  minSize := (max 0 minSize).toNat
  maxSize := (max (max 0 minSize) maxSize).toNat
  minSize_le := Int.toNat_le_toNat (le_max_left _ _)
  idleTtl := idleTtl

/-- `Entry`: a connection of the pool, or the place of one. -/
structure Entry where
  conn : Option ℕ := none
  inUse : Bool := false
  healthy : Bool := false
  failures : ℕ := 0
  lastUsed : ℤ
  deriving DecidableEq, Repr

/-- `Guard`: what `acquire` returns. -/
structure Guard where
  /-- Whether `pool_` is set. -/
  pool : Bool := false
  index : ℕ := 0
  conn : Option ℕ := none
  healthy : Bool := true
  deriving DecidableEq, Repr

/-- Whether the guard still has something to give back. -/
def Guard.live (g : Guard) : Bool := g.pool && g.conn.isSome

/-- A guard that has been moved from, or released. -/
def Guard.emptied (g : Guard) : Guard := { g with pool := false, conn := none }

/-- What a pool is told while it goes through its entries, for the entry at each index. -/
structure Answers where
  /-- Whether a connect succeeds. -/
  connects : ℕ → Bool
  /-- Whether a ping succeeds. -/
  pings : ℕ → Bool
  /-- What the clock shows where a new entry is made. -/
  clock : ℕ → ℤ

/-- Every connect and every ping succeeds. -/
def Answers.ok : Answers := ⟨fun _ => true, fun _ => true, fun _ => 0⟩

/-! ### Operations on one entry -/

/-- `connect`: a new connection, or none. -/
def connect (v : Server) : Bool → Option ℕ × Server
  | true => (some v.next, v.issue)
  | false => (none, v)

/-- `closeEntry`. -/
def closeEntry (e : Entry) (v : Server) : Entry × Server :=
  ({ e with conn := none, healthy := false, inUse := false }, v.close e.conn)

/-- An entry whose connection is assigned from `connect`, and what its `healthy` is then. -/
def Entry.reconnected (e : Entry) (v : Server) (ok : Bool) : Entry × Server :=
  let (conn, v) := connect v ok
  ({ e with conn := conn, healthy := conn.isSome }, v)

/-- `ensureHealthy`, for the entry at an index. It returns whether the entry is healthy
afterwards. -/
def ensureHealthy (a : Answers) (index : ℕ) (e : Entry) (v : Server) : Entry × Server :=
  if e.conn = none then e.reconnected v (a.connects index)
  else if a.pings index then ({ e with healthy := true, failures := 0 }, v)
  else
    let (e, v) := closeEntry e v
    e.reconnected v (a.connects index)

/-- What the loop of `acquire` does with an idle entry: it leaves a healthy one alone. -/
def tryEntry (a : Answers) (index : ℕ) (e : Entry) (v : Server) : Entry × Server :=
  if e.healthy then (e, v) else ensureHealthy a index e v

/-- The body of the first loop of `healthLoop`. -/
def checkEntry (b : Backend) (a : Answers) (now : ℤ) (index : ℕ) (e : Entry) (v : Server) :
    Entry × Server :=
  if e.inUse then (e, v)
  else
    match b with
    | .mysql =>
      -- the connection of an unhealthy entry is assigned over, not closed
      if !e.healthy ∨ e.conn = none then
        ({ e with lastUsed := now }).reconnected v (a.connects index)
      else if a.pings index then (e, v)
      else closeEntry e v
    | .redis =>
      if e.conn = none then ({ e with lastUsed := now }).reconnected v (a.connects index)
      else if a.pings index then ({ e with healthy := true }, v)
      else closeEntry e v

/-- Whether `release` takes a connection for broken: the MySQL pool also asks it for the
error of its last call. -/
def Backend.broken (b : Backend) (healthy errno : Bool) : Bool :=
  match b with
  | .mysql => !healthy || errno
  | .redis => !healthy

/-- An entry that `release` gets back. -/
def Entry.released (b : Backend) (healthy errno : Bool) (now : ℤ) (e : Entry) : Entry :=
  if b.broken healthy errno then
    { e with inUse := false, lastUsed := now, healthy := false, failures := e.failures + 1 }
  else { e with inUse := false, lastUsed := now }

/-! ### Operations on the entries -/

/-- The loop of `start` that makes the first entries. -/
def startEntries (a : Answers) (index : ℕ) : ℕ → Server → List Entry × Server
  | 0, v => ([], v)
  | n + 1, v =>
    let (e, v) := Entry.reconnected { lastUsed := a.clock index } v (a.connects index)
    let (es, v) := startEntries a (index + 1) n v
    (e :: es, v)

/-- The loop of `acquire` over the entries: the first idle one that is healthy or can be
made so is marked, and its index and connection are returned. -/
def acquireScan (a : Answers) : ℕ → List Entry → Server →
    (List Entry × Server) × Option (ℕ × Option ℕ)
  | _, [], v => (([], v), none)
  | index, e :: es, v =>
    if e.inUse then
      let ((es, v), found) := acquireScan a (index + 1) es v
      ((e :: es, v), found)
    else
      let (e, v) := tryEntry a index e v
      if e.healthy then (({ e with inUse := true } :: es, v), some (index, e.conn))
      else
        let ((es, v), found) := acquireScan a (index + 1) es v
        ((e :: es, v), found)

/-- A pass of the loop of `acquire`: an entry that is there, else a new one. -/
def acquireEntry (c : PoolConfig) (a : Answers) (es : List Entry) (v : Server) :
    (List Entry × Server) × Option (ℕ × Option ℕ) :=
  let ((es, v), found) := acquireScan a 0 es v
  match found with
  | some held => ((es, v), some held)
  | none =>
    if es.length < c.maxSize then
      let (e, v) :=
        Entry.reconnected { lastUsed := a.clock es.length } v (a.connects es.length)
      ((es ++ [{ e with inUse := e.healthy }], v),
        if e.healthy then some (es.length, e.conn) else none)
    else ((es, v), none)

/-- The first loop of a round of `healthLoop`. -/
def checkEntries (b : Backend) (a : Answers) (now : ℤ) : ℕ → List Entry → Server →
    List Entry × Server
  | _, [], v => ([], v)
  | index, e :: es, v =>
    let (e, v) := checkEntry b a now index e v
    let (es, v) := checkEntries b a now (index + 1) es v
    (e :: es, v)

/-- `openConnections`: the entries that have a connection. -/
def openConnections (es : List Entry) : ℕ := es.countP (·.conn.isSome)

/-- The last loop of a round of `healthLoop`: entries that have been idle for too long are
closed while more than `minSize_` are open. -/
def reapEntries (c : PoolConfig) (now : ℤ) : ℕ → List Entry → Server → List Entry × Server
  | _, [], v => ([], v)
  | opened, e :: es, v =>
    if opened ≤ c.minSize then (e :: es, v)
    else if !e.inUse ∧ e.conn.isSome ∧ c.idleTtl < now - e.lastUsed then
      let (e, v) := closeEntry e v
      let (es, v) := reapEntries c now (opened - 1) es v
      (e :: es, v)
    else
      let (es, v) := reapEntries c now opened es v
      (e :: es, v)

/-- A round of `healthLoop`. -/
def healthRound (b : Backend) (c : PoolConfig) (a : Answers) (now : ℤ) (es : List Entry)
    (v : Server) : List Entry × Server :=
  let (es, v) := checkEntries b a now 0 es v
  reapEntries c now (openConnections es) es v

/-- The loop of `stop` that closes the entries. -/
def closeEntries : List Entry → Server → Server
  | [], v => v
  | e :: es, v => closeEntries es (closeEntry e v).2

/-! ### The pool and its guards -/

/-- A pool, the guards it has handed out and the server it is connected to. -/
structure ConnectionPool where
  running : Bool := false
  /-- Whether a call of `stop` waits for the health thread. -/
  stopping : Bool := false
  entries : List Entry := []
  /-- Every guard there has ever been; one that was destroyed is an empty one. -/
  guards : List Guard := []
  server : Server := {}
  deriving DecidableEq, Repr

namespace ConnectionPool

/-- What the threads do with a pool. -/
inductive Action where
  | start (a : Answers)
  /-- A pass of the loop of `acquire`, which times out or not if it ends up waiting. -/
  | acquire (a : Answers) (timedOut : Bool)
  /-- A guard constructed from the one in a slot. -/
  | moveConstruct (slot : ℕ)
  | moveAssign (slot other : ℕ) (errno : Bool) (now : ℤ)
  | markUnhealthy (slot : ℕ)
  /-- The destructor of the guard in a slot. -/
  | release (slot : ℕ) (errno : Bool) (now : ℤ)
  | healthPass (a : Answers) (now : ℤ)
  /-- `stop` up to where it waits for the health thread. -/
  | stopBegin
  /-- The rest of `stop`. -/
  | stopEnd

/-- `release` of the pool. -/
def releaseEntry (b : Backend) (s : ConnectionPool) (index : ℕ) (healthy errno : Bool)
    (now : ℤ) : ConnectionPool :=
  match s.entries[index]? with
  | none => s
  | some e => { s with entries := s.entries.set index (e.released b healthy errno now) }

/-- `release` of a guard: what becomes of the pool. -/
def releaseGuard (b : Backend) (s : ConnectionPool) (g : Guard) (errno : Bool) (now : ℤ) :
    ConnectionPool :=
  if g.live then s.releaseEntry b g.index g.healthy errno now else s

/-- **One step.** -/
def step (b : Backend) (c : PoolConfig) (s : ConnectionPool) : Action → Option ConnectionPool
  | .start a =>
    -- `stop` joins the health thread without the lock, so `start` is not called meanwhile
    if s.stopping then none
    else if s.running then some s
    else
      let (es, v) := startEntries a s.entries.length c.minSize s.server
      some { s with running := true, entries := s.entries ++ es, server := v }
  | .acquire a timedOut =>
    if !s.running then some { s with guards := s.guards ++ [{}] }
    else
      let ((es, v), found) := acquireEntry c a s.entries s.server
      match found with
      | some (index, conn) =>
        some { s with
          entries := es, server := v, guards := s.guards ++ [⟨true, index, conn, true⟩] }
      | none =>
        some { s with
          entries := es, server := v, guards := if timedOut then s.guards ++ [{}] else s.guards }
  | .moveConstruct slot =>
    match s.guards[slot]? with
    | none => none
    | some g => some { s with guards := s.guards.set slot g.emptied ++ [g] }
  | .moveAssign slot other errno now =>
    match s.guards[slot]?, s.guards[other]? with
    | some g, some h =>
      if slot = other then some s
      else
        let s := s.releaseGuard b g errno now
        some { s with guards := (s.guards.set slot h).set other h.emptied }
    | _, _ => none
  | .markUnhealthy slot =>
    match s.guards[slot]? with
    | none => none
    | some g => some { s with guards := s.guards.set slot { g with healthy := false } }
  | .release slot errno now =>
    match s.guards[slot]? with
    | none => none
    | some g =>
      let s := s.releaseGuard b g errno now
      some { s with guards := s.guards.set slot g.emptied }
  | .healthPass a now =>
    -- the thread ends when it finds the pool stopped
    if !s.running then none
    else
      let (es, v) := healthRound b c a now s.entries s.server
      some { s with entries := es, server := v }
  | .stopBegin =>
    if !s.running then some s
    else some { s with running := false, stopping := true }
  | .stopEnd =>
    if !s.stopping then none
    else
      some { s with
        stopping := false, entries := [], server := closeEntries s.entries s.server }

/-- **What a step requires and does**, case by case. -/
inductive Stepped (b : Backend) (c : PoolConfig) (s : ConnectionPool) :
    Action → ConnectionPool → Prop
  /-- A second `start` or `stop`, or a guard assigned to itself. -/
  | stays {act : Action} : Stepped b c s act s
  | starts {a : Answers} (hrun : s.running = false) (hstop : s.stopping = false) :
    Stepped b c s (.start a)
      { s with
        running := true
        entries := s.entries ++ (startEntries a s.entries.length c.minSize s.server).1
        server := (startEntries a s.entries.length c.minSize s.server).2 }
  | refuses {a : Answers} {timedOut : Bool} (hrun : s.running = false) :
    Stepped b c s (.acquire a timedOut) { s with guards := s.guards ++ [{}] }
  | acquires {a : Answers} {timedOut : Bool} (index : ℕ) (conn : Option ℕ)
      (hrun : s.running = true)
      (hfound : (acquireEntry c a s.entries s.server).2 = some (index, conn)) :
    Stepped b c s (.acquire a timedOut)
      { s with
        entries := (acquireEntry c a s.entries s.server).1.1
        server := (acquireEntry c a s.entries s.server).1.2
        guards := s.guards ++ [⟨true, index, conn, true⟩] }
  | waits {a : Answers} {timedOut : Bool} (hrun : s.running = true)
      (hfound : (acquireEntry c a s.entries s.server).2 = none) :
    Stepped b c s (.acquire a timedOut)
      { s with
        entries := (acquireEntry c a s.entries s.server).1.1
        server := (acquireEntry c a s.entries s.server).1.2
        guards := if timedOut then s.guards ++ [{}] else s.guards }
  | moveConstructs {slot : ℕ} (g : Guard) (hg : s.guards[slot]? = some g) :
    Stepped b c s (.moveConstruct slot) { s with guards := s.guards.set slot g.emptied ++ [g] }
  | moveAssigns {slot other : ℕ} {errno : Bool} {now : ℤ} (g g' : Guard)
      (hg : s.guards[slot]? = some g) (hg' : s.guards[other]? = some g') (hne : slot ≠ other) :
    Stepped b c s (.moveAssign slot other errno now)
      { s.releaseGuard b g errno now with
        guards := ((s.releaseGuard b g errno now).guards.set slot g').set other g'.emptied }
  | marksUnhealthy {slot : ℕ} (g : Guard) (hg : s.guards[slot]? = some g) :
    Stepped b c s (.markUnhealthy slot)
      { s with guards := s.guards.set slot { g with healthy := false } }
  | releases {slot : ℕ} {errno : Bool} {now : ℤ} (g : Guard) (hg : s.guards[slot]? = some g) :
    Stepped b c s (.release slot errno now)
      { s.releaseGuard b g errno now with
        guards := (s.releaseGuard b g errno now).guards.set slot g.emptied }
  | passes {a : Answers} {now : ℤ} (hrun : s.running = true) :
    Stepped b c s (.healthPass a now)
      { s with
        entries := (healthRound b c a now s.entries s.server).1
        server := (healthRound b c a now s.entries s.server).2 }
  | stopBegins (hrun : s.running = true) :
    Stepped b c s .stopBegin { s with running := false, stopping := true }
  | stopEnds (hstop : s.stopping = true) :
    Stepped b c s .stopEnd
      { s with stopping := false, entries := [], server := closeEntries s.entries s.server }

theorem stepped_of_step {b : Backend} {c : PoolConfig} {s t : ConnectionPool} {act : Action}
    (h : s.step b c act = some t) : Stepped b c s act t := by
  cases act with
  | start a =>
    simp only [step] at h
    split at h
    · cases h
    · next hstop =>
      split at h
      · obtain rfl := Option.some.inj h
        exact .stays
      · next hrun =>
        obtain rfl := Option.some.inj h
        exact .starts (by simpa using hrun) (by simpa using hstop)
  | acquire a timedOut =>
    simp only [step] at h
    split at h
    · next hrun =>
      obtain rfl := Option.some.inj h
      exact .refuses (by simpa using hrun)
    · next hrun =>
      split at h
      · next index conn hfound =>
        obtain rfl := Option.some.inj h
        exact .acquires index conn (by simpa using hrun) hfound
      · next hfound =>
        obtain rfl := Option.some.inj h
        exact .waits (by simpa using hrun) hfound
  | moveConstruct slot =>
    simp only [step] at h
    split at h
    · cases h
    · next g hg =>
      obtain rfl := Option.some.inj h
      exact .moveConstructs g hg
  | moveAssign slot other errno now =>
    simp only [step] at h
    split at h
    · next g g' hg hg' =>
      split at h
      · obtain rfl := Option.some.inj h
        exact .stays
      · next hne =>
        obtain rfl := Option.some.inj h
        exact .moveAssigns g g' hg hg' hne
    · cases h
  | markUnhealthy slot =>
    simp only [step] at h
    split at h
    · cases h
    · next g hg =>
      obtain rfl := Option.some.inj h
      exact .marksUnhealthy g hg
  | release slot errno now =>
    simp only [step] at h
    split at h
    · cases h
    · next g hg =>
      obtain rfl := Option.some.inj h
      exact .releases g hg
  | healthPass a now =>
    simp only [step] at h
    split at h
    · cases h
    · next hrun =>
      obtain rfl := Option.some.inj h
      exact .passes (by simpa using hrun)
  | stopBegin =>
    simp only [step] at h
    split at h
    · obtain rfl := Option.some.inj h
      exact .stays
    · next hrun =>
      obtain rfl := Option.some.inj h
      exact .stopBegins (by simpa using hrun)
  | stopEnd =>
    simp only [step] at h
    split at h
    · cases h
    · next hstop =>
      obtain rfl := Option.some.inj h
      exact .stopEnds (by simpa using hstop)

end ConnectionPool

/-! ### Where the connections are

Each loop is followed along the entries: those it has passed are among the other slots. -/

section Tracking

open Handles (Tracked)

variable {a : Answers} {e : Entry} {es : List Entry} {v : Server} {slots : List (Option ℕ)}
  {lost : List ℕ}

/-- The connections of some entries. -/
def conns (es : List Entry) : List (Option ℕ) := es.map (·.conn)

@[simp] theorem conns_nil : conns [] = [] := rfl

@[simp] theorem conns_cons : conns (e :: es) = e.conn :: conns es := rfl

/-- The connection of an idle entry that the MySQL pool assigns over although it is not
closed. -/
def Entry.overwritten (b : Backend) (e : Entry) : List ℕ :=
  match b with
  | .mysql => if !e.inUse ∧ !e.healthy then e.conn.toList else []
  | .redis => []

theorem Entry.tracked_reconnected (e : Entry) (ok : Bool) (h : Tracked v (none :: slots) lost) :
    Tracked (e.reconnected v ok).2 ((e.reconnected v ok).1.conn :: slots) lost := by
  cases ok with
  | false => exact h
  | true => exact h.fill

theorem tracked_closeEntry (h : Tracked v (e.conn :: slots) lost) :
    Tracked (closeEntry e v).2 ((closeEntry e v).1.conn :: slots) lost :=
  h.close

theorem tracked_ensureHealthy {index : ℕ} (h : Tracked v (e.conn :: slots) lost) :
    Tracked (ensureHealthy a index e v).2 ((ensureHealthy a index e v).1.conn :: slots) lost := by
  unfold ensureHealthy
  split
  · next hnone => exact Entry.tracked_reconnected e _ (hnone ▸ h)
  · split
    · exact h
    · exact Entry.tracked_reconnected _ _ (tracked_closeEntry h)

theorem tracked_tryEntry (a : Answers) (index : ℕ) (h : Tracked v (e.conn :: slots) lost) :
    Tracked (tryEntry a index e v).2 ((tryEntry a index e v).1.conn :: slots) lost := by
  unfold tryEntry
  split
  · exact h
  · exact tracked_ensureHealthy h

theorem tracked_checkEntry (b : Backend) (a : Answers) (now : ℤ) (index : ℕ)
    (h : Tracked v (e.conn :: slots) lost) :
    Tracked (checkEntry b a now index e v).2 ((checkEntry b a now index e v).1.conn :: slots)
      (e.overwritten b ++ lost) := by
  by_cases huse : e.inUse = true
  · cases b <;> simpa [checkEntry, Entry.overwritten, huse] using h
  cases b with
  | redis =>
    rw [checkEntry, if_neg huse]
    split
    · next hnone => exact Entry.tracked_reconnected _ _ (hnone ▸ h)
    · split
      · exact h
      · exact tracked_closeEntry h
  | mysql =>
    rw [checkEntry, if_neg huse]
    split
    · next hcond =>
      by_cases hhealthy : e.healthy = true
      · -- a healthy entry is only reconnected when it has no connection
        have hnone : e.conn = none := by simpa [hhealthy] using hcond
        simpa [Entry.overwritten, hhealthy] using Entry.tracked_reconnected _ _ (hnone ▸ h)
      · simpa [Entry.overwritten, huse, hhealthy] using Entry.tracked_reconnected _ _ h.lose
    · next hcond =>
      have hnil : e.overwritten .mysql = [] := by
        simp only [not_or, Bool.not_eq_true, Bool.not_eq_false'] at hcond
        simp [Entry.overwritten, hcond.1]
      rw [hnil]
      split
      · exact h
      · exact tracked_closeEntry h

theorem tracked_startEntries (a : Answers) (index n : ℕ) (h : Tracked v slots lost) :
    Tracked (startEntries a index n v).2 (conns (startEntries a index n v).1 ++ slots) lost := by
  induction n generalizing index v slots with
  | zero => exact h
  | succ n ih =>
    have hhead := Entry.tracked_reconnected { lastUsed := a.clock index } (a.connects index)
      (Tracked.none_cons_iff.mpr h)
    exact Tracked.pass_iff.mpr (ih (index + 1) hhead)

theorem tracked_acquireScan (a : Answers) (index : ℕ) (h : Tracked v (conns es ++ slots) lost) :
    Tracked (acquireScan a index es v).1.2 (conns (acquireScan a index es v).1.1 ++ slots)
      lost := by
  induction es generalizing index v slots with
  | nil => exact h
  | cons e es ih =>
    simp only [acquireScan]
    split
    · exact Tracked.pass_iff.mpr (ih (index + 1) (Tracked.pass_iff.mp h))
    · have hhead := tracked_tryEntry a index h
      split
      · exact hhead
      · exact Tracked.pass_iff.mpr (ih (index + 1) (Tracked.pass_iff.mp hhead))

theorem tracked_acquireEntry (c : PoolConfig) (a : Answers) (h : Tracked v (conns es) lost) :
    Tracked (acquireEntry c a es v).1.2 (conns (acquireEntry c a es v).1.1) lost := by
  have hscan : Tracked (acquireScan a 0 es v).1.2 (conns (acquireScan a 0 es v).1.1) lost := by
    rw [← List.append_nil (conns es)] at h
    simpa using tracked_acquireScan a 0 h
  simp only [acquireEntry]
  split
  · exact hscan
  · split
    · have hnew := Entry.tracked_reconnected
        { lastUsed := a.clock (acquireScan a 0 es v).1.1.length }
        (a.connects (acquireScan a 0 es v).1.1.length) (Tracked.none_cons_iff.mpr hscan)
      refine hnew.of_perm ?_ (List.Perm.refl _)
      simpa [conns] using (List.perm_append_singleton _ _).symm
    · exact hscan

theorem tracked_checkEntries (b : Backend) (a : Answers) (now : ℤ) (index : ℕ)
    (h : Tracked v (conns es ++ slots) lost) :
    Tracked (checkEntries b a now index es v).2
      (conns (checkEntries b a now index es v).1 ++ slots)
      (es.flatMap (·.overwritten b) ++ lost) := by
  induction es generalizing index v slots lost with
  | nil => exact h
  | cons e es ih =>
    have hhead := tracked_checkEntry b a now index h
    have htail := Tracked.pass_iff.mpr (ih (index + 1) (Tracked.pass_iff.mp hhead))
    refine htail.of_perm (List.Perm.refl _) ?_
    simpa using List.perm_append_comm_assoc _ _ _

theorem tracked_reapEntries (c : PoolConfig) (now : ℤ) (opened : ℕ)
    (h : Tracked v (conns es ++ slots) lost) :
    Tracked (reapEntries c now opened es v).2 (conns (reapEntries c now opened es v).1 ++ slots)
      lost := by
  induction es generalizing opened v slots with
  | nil => exact h
  | cons e es ih =>
    simp only [reapEntries]
    split
    · exact h
    · split
      · exact Tracked.pass_iff.mpr (ih _ (Tracked.pass_iff.mp (tracked_closeEntry h)))
      · exact Tracked.pass_iff.mpr (ih _ (Tracked.pass_iff.mp h))

/-- **A health round loses exactly the connections it assigns over.** -/
theorem tracked_healthRound (b : Backend) (c : PoolConfig) (a : Answers) (now : ℤ)
    (h : Tracked v (conns es) lost) :
    Tracked (healthRound b c a now es v).2 (conns (healthRound b c a now es v).1)
      (es.flatMap (·.overwritten b) ++ lost) := by
  rw [← List.append_nil (conns es)] at h
  simpa [healthRound] using
    tracked_reapEntries c now (openConnections (checkEntries b a now 0 es v).1)
      (tracked_checkEntries b a now 0 h)

theorem tracked_closeEntries (h : Tracked v (conns es ++ slots) lost) :
    Tracked (closeEntries es v) slots lost := by
  induction es generalizing v with
  | nil => exact h
  | cons e es ih => exact ih (Tracked.none_cons_iff.mp (tracked_closeEntry h))

@[simp] theorem Entry.released_conn (b : Backend) (healthy errno : Bool) (now : ℤ) :
    (e.released b healthy errno now).conn = e.conn := by
  unfold Entry.released
  split <;> rfl

@[simp] theorem Entry.released_inUse (b : Backend) (healthy errno : Bool) (now : ℤ) :
    (e.released b healthy errno now).inUse = false := by
  unfold Entry.released
  split <;> rfl

/-- Giving an entry back leaves every connection where it is. -/
theorem conns_releaseEntry (b : Backend) (s : ConnectionPool) (index : ℕ)
    (healthy errno : Bool) (now : ℤ) :
    conns (s.releaseEntry b index healthy errno now).entries = conns s.entries := by
  unfold ConnectionPool.releaseEntry
  split
  · rfl
  · next e he =>
    refine List.ext_getElem? fun i => ?_
    obtain ⟨hlt, rfl⟩ := List.getElem?_eq_some_iff.mp he
    by_cases hi : index = i
    · subst hi
      simp [conns, hlt]
    · simp [conns, hi]

end Tracking

end MonitorSystem
