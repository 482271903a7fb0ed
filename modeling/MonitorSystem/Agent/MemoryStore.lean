import MonitorSystem.Agent.MemoryScope
import MonitorSystem.Library.Paging

/-!
# The in-memory store

`InMemoryStore` of `agent_service/internal/session/memory/in_memory.go`: sessions and
policies under their keys, long-term memories under their ids, and the recorded events.
The store is also the vector index of the default configuration (`search`).

A time is a number of nanoseconds since the zero time. What an operation takes from its
environment – the reading of the clock, a new id, the order in which a map is iterated and
sorted – is an argument of it.

The store carries its invariant: a session is stored under the key of its scope, and there
is one memory to an id.
-/

namespace MonitorSystem

/-! ### Sessions and memories -/

/-- The role of a message. -/
inductive Role where
  | user
  | assistant
  deriving DecidableEq, Repr

/-- A message of a conversation. -/
structure Message where
  role : Role
  content : String
  deriving DecidableEq, Repr

/-- `SessionMemory`. -/
structure SessionMemory where
  scope : MemoryScope
  summary : String := ""
  messages : List Message := []
  updatedAt : ℤ := 0
  deriving DecidableEq, Repr

/-- `LongTermStatus`: the named states, the empty text, and any other text. -/
inductive LongTermStatus where
  | unset
  | active
  | pending
  | deleting
  | deleted
  | other (name : String)
  deriving DecidableEq, Repr

/-- `LongTermMemory`, less the fields that only describe where a memory comes from. A time
that is not set is zero. -/
structure LongTermMemory where
  id : String := ""
  scope : MemoryScope
  type : String := ""
  content : String
  status : LongTermStatus := .unset
  vectorId : String := ""
  createdAt : ℤ := 0
  updatedAt : ℤ := 0
  lastUsedAt : Option ℤ := none
  expiresAt : Option ℤ := none
  deriving DecidableEq, Repr

/-- `MemorySelector`. -/
structure MemorySelector where
  id : String := ""
  scope : MemoryScope
  type : String := ""
  status : LongTermStatus := .unset
  includeDeleted : Bool := false
  query : String := ""
  limit : ℤ := 0
  deriving DecidableEq, Repr

/-- `MemoryEvent`, as the manager records it. -/
structure MemoryEvent where
  id : String
  memoryId : String
  scope : MemoryScope
  action : String
  detail : String
  createdAt : ℤ
  deriving DecidableEq, Repr

/-! ### The store -/

/-- A session that may stand under a key. -/
structure SessionMemory.StoredUnder (session : SessionMemory) (key : String) : Prop where
  key_eq : session.scope.sessionKey = key
  valid : validateSessionScope session.scope = .ok ()
  normalized : session.scope.normalized = session.scope

/-- **`InMemoryStore`.** -/
structure InMemoryStore where
  sessions : String → Option SessionMemory
  policies : String → Option MemoryPolicy
  longTerm : List LongTermMemory
  events : List MemoryEvent
  sessions_stored : ∀ key session, sessions key = some session → session.StoredUnder key
  longTerm_nodup : (longTerm.map (·.id)).Nodup

namespace InMemoryStore

/-- `NewInMemoryStore`. -/
def new : InMemoryStore where
  sessions _ := none
  policies _ := none
  longTerm := []
  events := []
  sessions_stored _ _ h := nomatch h
  longTerm_nodup := List.nodup_nil

/-- `LoadSession`: the stored session, or a new one that is not stored. -/
def loadSession (store : InMemoryStore) (scope : MemoryScope) (now : ℤ) :
    Except String SessionMemory := do
  validateSessionScope scope.normalized
  match store.sessions scope.normalized.sessionKey with
  | some session => .ok session
  | none => .ok { scope := scope.normalized, updatedAt := now }

/-- The session as `SaveSession` stores it. -/
def normalizedSession (session : SessionMemory) : SessionMemory :=
  { session with scope := session.scope.normalized }

theorem storedUnder_normalizedSession {session : SessionMemory}
    (h : validateSessionScope session.scope.normalized = .ok ()) :
    (normalizedSession session).StoredUnder session.scope.normalized.sessionKey :=
  ⟨rfl, h, MemoryScope.normalized_normalized _⟩

theorem sessions_stored_update {sessions : String → Option SessionMemory} {key : String}
    {session : SessionMemory} (hall : ∀ k s, sessions k = some s → s.StoredUnder k)
    (h : session.StoredUnder key) (k : String) (s : SessionMemory)
    (hk : Function.update sessions key (some session) k = some s) : s.StoredUnder k := by
  rcases eq_or_ne k key with rfl | hne
  · obtain rfl : session = s := by simpa using hk
    exact h
  · exact hall k s (by simpa [hne] using hk)

/-- `SaveSession`. -/
def saveSession (store : InMemoryStore) (session : SessionMemory) : Except String InMemoryStore :=
  match h : validateSessionScope session.scope.normalized with
  | .error e => .error e
  | .ok () =>
    .ok { store with
      sessions := Function.update store.sessions session.scope.normalized.sessionKey
        (some (normalizedSession session))
      sessions_stored :=
        sessions_stored_update store.sessions_stored (storedUnder_normalizedSession h) }

/-- `GetPolicy`. -/
def getPolicy (store : InMemoryStore) (level : ScopeLevel) (scope : MemoryScope) :
    Option MemoryPolicy :=
  store.policies (scope.policyKey level)

/-- `SetPolicy`. -/
def setPolicy (store : InMemoryStore) (level : ScopeLevel) (scope : MemoryScope)
    (policy : MemoryPolicy) : InMemoryStore :=
  { store with policies := Function.update store.policies (scope.policyKey level) (some policy) }

/-- A memory put under its id, in the place of the one that is there. -/
def put (items : List LongTermMemory) (item : LongTermMemory) : List LongTermMemory :=
  item :: items.filter fun other => other.id ≠ item.id

theorem nodup_put {items : List LongTermMemory} (h : (items.map (·.id)).Nodup)
    (item : LongTermMemory) : ((put items item).map (·.id)).Nodup := by
  rw [put, List.map_cons, List.nodup_cons]
  constructor
  · simp
  · exact h.sublist (List.filter_sublist.map _)

/-- The memory as `SaveLongTermMemory` stores it. -/
def prepared (item : LongTermMemory) (now : ℤ) (uuid : String) : LongTermMemory :=
  let id := if item.id = "" then uuid else item.id
  { item with
    id
    vectorId := if item.vectorId = "" then id else item.vectorId
    status := if item.status = .unset then .active else item.status
    scope := item.scope.normalized
    createdAt := if item.createdAt = 0 then now else item.createdAt
    updatedAt := now }

/-- `SaveLongTermMemory`, with the time and the id that it takes. -/
def saveLongTermMemory (store : InMemoryStore) (item : LongTermMemory) (now : ℤ)
    (uuid : String) : Except String (InMemoryStore × LongTermMemory) := do
  validateMemoryScope item.scope.normalized
  .ok ({ store with
    longTerm := put store.longTerm (prepared item now uuid)
    longTerm_nodup := nodup_put store.longTerm_nodup _ }, prepared item now uuid)

/-- `MarkLongTermStatus`. -/
def markLongTermStatus (store : InMemoryStore) (id : String) (status : LongTermStatus)
    (now : ℤ) : Except String InMemoryStore :=
  match store.longTerm.find? fun item => item.id = id with
  | none => .error ("长期记忆 " ++ id.quote ++ " 不存在")
  | some item =>
    .ok { store with
      longTerm := put store.longTerm { item with status, updatedAt := now }
      longTerm_nodup := nodup_put store.longTerm_nodup _ }

/-- `RecordMemoryEvent`. -/
def recordMemoryEvent (store : InMemoryStore) (event : MemoryEvent) : InMemoryStore :=
  { store with events := store.events ++ [event] }

end InMemoryStore

/-! ### Listing -/

/-- `matchMemory`. -/
def matchMemory (selector : MemorySelector) (item : LongTermMemory) (now : ℤ) : Bool :=
  (selector.id = "" ∨ item.id = selector.id) ∧
  (selector.scope.tenantId = "" ∨ item.scope.tenantId = selector.scope.tenantId) ∧
  (selector.scope.teamId = "" ∨ item.scope.teamId = selector.scope.teamId) ∧
  (selector.scope.clusterId = "" ∨ item.scope.clusterId = selector.scope.clusterId) ∧
  (selector.type = "" ∨ item.type = selector.type) ∧
  (selector.status = .unset ∨ item.status = selector.status) ∧
  (selector.includeDeleted = true ∨ (item.status ≠ .deleted ∧ item.status ≠ .deleting)) ∧
  (item.status = .active ∨ selector.status ≠ .unset) ∧
  ¬ (∃ t ∈ item.expiresAt, t < now)

/-- The comparison by which `ListLongTermMemories` sorts: memories of a cluster first, and
the newer ones first within a cluster. -/
def listedBefore (a b : LongTermMemory) : Bool :=
  if a.scope.clusterId ≠ b.scope.clusterId then a.scope.clusterId ≠ ""
  else b.updatedAt < a.updatedAt

/-- No two of the memories are of different clusters. -/
def SameCluster (items : List LongTermMemory) : Prop :=
  ∀ a ∈ items, ∀ b ∈ items, a.scope.clusterId ≠ "" → b.scope.clusterId ≠ "" →
    a.scope.clusterId = b.scope.clusterId

instance decidableSameCluster (items : List LongTermMemory) : Decidable (SameCluster items) :=
  inferInstanceAs (Decidable (∀ a ∈ items, ∀ b ∈ items, a.scope.clusterId ≠ "" →
    b.scope.clusterId ≠ "" → a.scope.clusterId = b.scope.clusterId))

/-- **The order that sorting by `listedBefore` gives.** Two memories of different clusters
each come before the other by that comparison, so among the memories of clusters there is
an order only if they are all of one. -/
def Precedes (items : List LongTermMemory) (a b : LongTermMemory) : Prop :=
  (a.scope.clusterId ≠ "" ∧ b.scope.clusterId = "") ∨
    ((a.scope.clusterId = "" ↔ b.scope.clusterId = "") ∧
      (a.scope.clusterId = "" ∨ SameCluster items) ∧ b.updatedAt < a.updatedAt)

instance decidablePrecedes (items : List LongTermMemory) : DecidableRel (Precedes items) :=
  fun a b => inferInstanceAs (Decidable ((a.scope.clusterId ≠ "" ∧ b.scope.clusterId = "") ∨
    ((a.scope.clusterId = "" ↔ b.scope.clusterId = "") ∧
      (a.scope.clusterId = "" ∨ SameCluster items) ∧ b.updatedAt < a.updatedAt)))

theorem precedes_weakOrder (items : List LongTermMemory) :
    Paging.WeakOrder (Precedes items) := by
  constructor
  · rintro a b (⟨ha, hb⟩ | ⟨hab, -, hlt⟩) (⟨hb', ha'⟩ | ⟨hba, -, hlt'⟩)
    · exact hb' hb
    · exact ha (hba.mp hb)
    · exact hb' (hab.mp ha')
    · omega
  · rintro a b c (⟨ha, hc⟩ | ⟨hac, hone, hlt⟩)
    · by_cases hb : b.scope.clusterId = ""
      · exact .inl (.inl ⟨ha, hb⟩)
      · exact .inr (.inl ⟨hb, hc⟩)
    · by_cases hab : a.scope.clusterId = "" ↔ b.scope.clusterId = ""
      · rcases Int.lt_or_le b.updatedAt a.updatedAt with hba | hba
        · exact .inl (.inr ⟨hab, hone, hba⟩)
        · exact .inr (.inr ⟨hab.symm.trans hac, hone.imp_left hab.mp, by omega⟩)
      · by_cases hb : b.scope.clusterId = ""
        · exact .inl (.inl ⟨by tauto, hb⟩)
        · exact .inr (.inl ⟨hb, by tauto⟩)

/-- The order agrees with the comparison where this is an order. -/
theorem precedes_iff_listedBefore {items : List LongTermMemory} (h : SameCluster items)
    {a b : LongTermMemory} (ha : a ∈ items) (hb : b ∈ items) :
    Precedes items a b ↔ listedBefore a b = true := by
  unfold Precedes listedBefore
  by_cases ha' : a.scope.clusterId = ""
  · by_cases hb' : b.scope.clusterId = ""
    · simp [ha', hb']
    · simp [ha', hb', Ne.symm hb']
  · by_cases hb' : b.scope.clusterId = ""
    · simp [ha', hb']
    · simp [hb', h, h a ha b hb ha' hb']

/-- **What iterating a map and `sort.SliceStable` give**: the memories in one of the orders
that the comparison allows. -/
structure Sorting where
  sort : List LongTermMemory → List LongTermMemory
  listing : ∀ items, Paging.Listing (Precedes items) items (sort items)

/-- Sorting by merging. -/
def Sorting.merge : Sorting where
  sort items := items.mergeSort fun a b => ! decide (Precedes items b a)
  listing items := Paging.listing_mergeSort (precedes_weakOrder items) items

/-- The first `limit` entries, if there is a limit. -/
def limited {α : Type} (limit : ℤ) (l : List α) : List α :=
  if limit > 0 then l.take limit.toNat else l

theorem mem_limited {α : Type} {limit : ℤ} {l : List α} {x : α} (h : x ∈ limited limit l) :
    x ∈ l := by
  unfold limited at h
  split at h
  · exact List.mem_of_mem_take h
  · exact h

@[simp] theorem limited_nil {α : Type} (limit : ℤ) : limited limit ([] : List α) = [] := by
  simp [limited]

namespace Sorting

variable (sorting : Sorting) {items : List LongTermMemory}

@[simp] theorem mem_sort {item : LongTermMemory} : item ∈ sorting.sort items ↔ item ∈ items :=
  (sorting.listing items).perm.mem_iff

@[simp] theorem sort_nil : sorting.sort [] = [] := List.perm_nil.mp (sorting.listing []).perm

end Sorting

namespace InMemoryStore

/-- The memories that `ListLongTermMemories` finds. -/
def selected (store : InMemoryStore) (selector : MemorySelector) (now : ℤ) :
    List LongTermMemory :=
  store.longTerm.filter fun item =>
    matchMemory { selector with scope := selector.scope.normalized } item now

/-- `ListLongTermMemories`. -/
def listLongTermMemories (store : InMemoryStore) (selector : MemorySelector) (now : ℤ)
    (sorting : Sorting) : Except String (List LongTermMemory) := do
  validateMemoryScope selector.scope.normalized
  .ok (limited selector.limit (sorting.sort (store.selected selector now)))

/-- **What a listing gives**, for a scope that the validation accepts. -/
theorem listLongTermMemories_eq (store : InMemoryStore) {selector : MemorySelector}
    (h : validateMemoryScope selector.scope = .ok ()) (now : ℤ) (sorting : Sorting) :
    store.listLongTermMemories selector now sorting =
      .ok (limited selector.limit (sorting.sort (store.selected selector now))) := by
  unfold listLongTermMemories
  rw [validateMemoryScope_normalized, h]
  rfl

theorem listLongTermMemories_refused (store : InMemoryStore) {selector : MemorySelector}
    {e : String} (h : validateMemoryScope selector.scope = .error e) (now : ℤ)
    (sorting : Sorting) : store.listLongTermMemories selector now sorting = .error e := by
  unfold listLongTermMemories
  rw [validateMemoryScope_normalized, h]
  rfl

/-- `hasSharedToken`. -/
def hasSharedToken (query content : String) : Bool :=
  (fields query).any fun token =>
    !((trimSpace token).toList.length < 2) && containsText content (trimSpace token)

/-- Whether `Search` takes a content. -/
def matchesQuery (toLower : Char → Char) (query content : String) : Bool :=
  let query := lowerText toLower (trimSpace query)
  let content := lowerText toLower content
  query = "" || containsText content query || hasSharedToken query content

/-- `Search`, the store as its own index. -/
def search (toLower : Char → Char) (store : InMemoryStore) (selector : MemorySelector) (now : ℤ)
    (sorting : Sorting) : Except String (List String) := do
  let items ← store.listLongTermMemories
    { scope := selector.scope, status := .active, limit := selector.limit } now sorting
  .ok (limited selector.limit
    ((items.filter fun item => matchesQuery toLower selector.query item.content).map (·.id)))

end InMemoryStore

end MonitorSystem
