import MonitorSystem.Agent.MemoryStore

/-!
# The store in MySQL

`MySQLMemoryStore` of `agent_service/internal/session/memory/long_mysql_memory.go`: the tables of
the policies, of the long-term memories and of the events. What an operation takes from the
database besides its rows is an argument of it (`MySql`): how `LIKE` compares, in which order
rows with the same time come, and which statements fail.

The store carries what the keys of the tables ensure: there is one memory to an id, and one row
of policies to a level and a scope.
-/

namespace MonitorSystem

/-! ### Rows -/

/-- `agentMemoryScopeModel`, less the number and the times of the row. -/
structure AgentMemoryScopeModel where
  scopeLevel : ScopeLevel
  tenantId : String
  teamId : String
  clusterId : String
  longTermEnabled : Option Bool
  writeEnabled : Option Bool
  recallEnabled : Option Bool
  recentWindow : Option ℤ
  summaryWindow : Option ℤ
  recallLimit : Option ℤ
  tokenBudget : Option ℤ
  deriving DecidableEq, Repr

/-- The columns of the unique key of the policies. -/
def AgentMemoryScopeModel.key (model : AgentMemoryScopeModel) :
    ScopeLevel × String × String × String :=
  (model.scopeLevel, model.tenantId, model.teamId, model.clusterId)

/-- `agentLongTermMemoryModel`, less the columns that only describe where a memory comes from. -/
structure AgentLongTermMemoryModel where
  id : String
  tenantId : String
  teamId : String
  clusterId : String
  memoryType : String
  content : String
  reason : String := ""
  status : LongTermStatus
  vectorId : String
  expiresAt : Option ℤ := none
  lastUsedAt : Option ℤ := none
  createdAt : ℤ := 0
  updatedAt : ℤ := 0
  deriving DecidableEq, Repr

/-- `agentMemoryEventModel`, less the user, who is not told to the manager. -/
structure AgentMemoryEventModel where
  id : String
  memoryId : Option String
  tenantId : String
  teamId : String
  clusterId : String
  action : String
  detail : String
  createdAt : ℤ
  deriving DecidableEq, Repr

/-- `modelToLongTermMemory`. -/
def modelToLongTermMemory (model : AgentLongTermMemoryModel) : LongTermMemory where
  id := model.id
  scope := { tenantId := model.tenantId, teamId := model.teamId, clusterId := model.clusterId }
  type := model.memoryType
  content := model.content
  status := model.status
  vectorId := model.vectorId
  createdAt := model.createdAt
  updatedAt := model.updatedAt
  lastUsedAt := model.lastUsedAt
  expiresAt := model.expiresAt

/-- `positiveIntPtr`. -/
def positiveIntPtr (value : ℤ) : Option ℤ := if value ≤ 0 then none else some value

/-- `nonEmptyStringPtr`. -/
def nonEmptyStringPtr (value : String) : Option String :=
  if trimSpace value = "" then none else some value

/-! ### The database -/

/-- `updated_at DESC`. -/
def Newer (a b : AgentLongTermMemoryModel) : Prop := b.updatedAt < a.updatedAt

instance decidableNewer : DecidableRel Newer :=
  fun a b => inferInstanceAs (Decidable (b.updatedAt < a.updatedAt))

theorem newer_weakOrder : Paging.WeakOrder Newer where
  asymm a b hab hba := by
    unfold Newer at hab hba
    omega
  split a b c hac := by
    unfold Newer at hac ⊢
    omega

/-- **What a call meets in the database**: how `LIKE` compares a column with a pattern, the order
in which rows come, and the errors with which statements fail, by the time they are made at. -/
structure MySql where
  like : String → String → Bool
  arrange : List AgentLongTermMemoryModel → List AgentLongTermMemoryModel
  listing : ∀ rows, Paging.Listing Newer rows (arrange rows)
  failed : ℕ → Option String

/-- **`MySQLMemoryStore`.** -/
structure MySQLMemoryStore where
  policies : List AgentMemoryScopeModel
  longTerm : List AgentLongTermMemoryModel
  events : List AgentMemoryEventModel
  policies_nodup : (policies.map (·.key)).Nodup
  longTerm_nodup : (longTerm.map (·.id)).Nodup

namespace MySQLMemoryStore

/-- A database without rows. -/
def empty : MySQLMemoryStore where
  policies := []
  longTerm := []
  events := []
  policies_nodup := List.nodup_nil
  longTerm_nodup := List.nodup_nil

/-! ### Policies -/

/-- The key of a level and a scope, which the queries for a policy compare. -/
def policyColumns (level : ScopeLevel) (scope : MemoryScope) :
    ScopeLevel × String × String × String :=
  (level, scope.normalized.tenantId, scope.normalized.teamId, scope.normalized.clusterId)

/-- The policy of a row. -/
def rowPolicy (model : AgentMemoryScopeModel) : MemoryPolicy where
  longTermEnabled := model.longTermEnabled
  writeEnabled := model.writeEnabled
  recallEnabled := model.recallEnabled
  recentWindow := model.recentWindow.getD 0
  summaryWindow := model.summaryWindow.getD 0
  recallLimit := model.recallLimit.getD 0
  tokenBudget := model.tokenBudget.getD 0

/-- `GetPolicy`. -/
def getPolicy (db : MySQLMemoryStore) (level : ScopeLevel) (scope : MemoryScope) :
    Option MemoryPolicy :=
  (db.policies.find? fun row => row.key = policyColumns level scope).map rowPolicy

/-- The row that `SetPolicy` makes of its arguments. -/
def policyModel (level : ScopeLevel) (scope : MemoryScope) (policy : MemoryPolicy) :
    AgentMemoryScopeModel where
  scopeLevel := level
  tenantId := scope.normalized.tenantId
  teamId := scope.normalized.teamId
  clusterId := scope.normalized.clusterId
  longTermEnabled := policy.longTermEnabled
  writeEnabled := policy.writeEnabled
  recallEnabled := policy.recallEnabled
  recentWindow := positiveIntPtr policy.recentWindow
  summaryWindow := positiveIntPtr policy.summaryWindow
  recallLimit := positiveIntPtr policy.recallLimit
  tokenBudget := positiveIntPtr policy.tokenBudget

/-- A row with the columns that `Assign` sets, which are those of the model that are not null. -/
def assigned (model row : AgentMemoryScopeModel) : AgentMemoryScopeModel :=
  { row with
    longTermEnabled := model.longTermEnabled <|> row.longTermEnabled
    writeEnabled := model.writeEnabled <|> row.writeEnabled
    recallEnabled := model.recallEnabled <|> row.recallEnabled
    recentWindow := model.recentWindow <|> row.recentWindow
    summaryWindow := model.summaryWindow <|> row.summaryWindow
    recallLimit := model.recallLimit <|> row.recallLimit
    tokenBudget := model.tokenBudget <|> row.tokenBudget }

/-- `Assign` and `FirstOrCreate`: the row with the key is updated, or a new one is made. -/
def firstOrCreate (rows : List AgentMemoryScopeModel) (model : AgentMemoryScopeModel) :
    List AgentMemoryScopeModel :=
  if rows.any fun row => row.key = model.key then
    rows.map fun row => if row.key = model.key then assigned model row else row
  else rows ++ [model]

theorem nodup_firstOrCreate {rows : List AgentMemoryScopeModel} (h : (rows.map (·.key)).Nodup)
    (model : AgentMemoryScopeModel) : ((firstOrCreate rows model).map (·.key)).Nodup := by
  unfold firstOrCreate
  split
  · have hkeys : (rows.map fun row => if row.key = model.key then assigned model row else row).map
        (·.key) = rows.map (·.key) := by
      rw [List.map_map]
      refine List.map_congr_left fun row _ => ?_
      rw [Function.comp_apply]
      split <;> rfl
    rwa [hkeys]
  · next hnone =>
    rw [List.map_append, List.nodup_append]
    refine ⟨h, List.nodup_singleton _, ?_⟩
    rintro key hkey _ hmodel rfl
    obtain ⟨row, hrow, rfl⟩ := List.mem_map.mp hkey
    have hsame : row.key = model.key := by simpa using hmodel
    exact hnone (List.any_eq_true.mpr ⟨row, hrow, decide_eq_true hsame⟩)

/-- `SetPolicy`. -/
def setPolicy (db : MySQLMemoryStore) (level : ScopeLevel) (scope : MemoryScope)
    (policy : MemoryPolicy) : Except String MySQLMemoryStore := do
  validatePolicyScope level scope
  .ok { db with
    policies := firstOrCreate db.policies (policyModel level scope policy)
    policies_nodup := nodup_firstOrCreate db.policies_nodup _ }

/-! ### Long-term memories -/

/-- Whether a row has the text of a query. -/
def hasText (like : String → String → Bool) (query : String) (row : AgentLongTermMemoryModel) :
    Bool :=
  trimSpace query = "" ∨ like row.content ("%" ++ trimSpace query ++ "%") ∨
    like row.reason ("%" ++ trimSpace query ++ "%") ∨
    like row.memoryType ("%" ++ trimSpace query ++ "%")

/-- The conditions of `ListLongTermMemories` on a row, for a selector with a normalised scope. -/
def selects (like : String → String → Bool) (selector : MemorySelector) (now : ℤ)
    (row : AgentLongTermMemoryModel) : Bool :=
  (row.tenantId = selector.scope.tenantId ∧ row.teamId = selector.scope.teamId ∧
    row.clusterId = selector.scope.clusterId) ∧
  (∀ t ∈ row.expiresAt, now < t) ∧
  (selector.id = "" ∨ row.id = selector.id) ∧
  (selector.type = "" ∨ row.memoryType = selector.type) ∧
  (if selector.status ≠ .unset then row.status = selector.status
    else selector.includeDeleted = true ∨ row.status = .active) ∧
  (selector.includeDeleted = true ∨ (row.status ≠ .deleting ∧ row.status ≠ .deleted)) ∧
  hasText like selector.query row

/-- The limit of a listing, with the one that it has where none is asked for. -/
def listLimit (limit : ℤ) : ℕ := if limit ≤ 0 then 20 else limit.toNat

/-- The rows that `ListLongTermMemories` selects. -/
def selectedRows (db : MySQLMemoryStore) (like : String → String → Bool)
    (selector : MemorySelector) (now : ℤ) : List AgentLongTermMemoryModel :=
  db.longTerm.filter fun row =>
    selects like { selector with scope := selector.scope.normalized } now row

/-- `ListLongTermMemories`. -/
def listLongTermMemories (m : MySql) (db : MySQLMemoryStore) (selector : MemorySelector)
    (now : ℤ) : Except String (List LongTermMemory) := do
  validateMemoryScope selector.scope.normalized
  match m.failed 0 with
  | some e => .error e
  | none =>
    .ok (((m.arrange (db.selectedRows m.like selector now)).take
      (listLimit selector.limit)).map modelToLongTermMemory)

/-- The row with its new status, if it has the id. -/
def updated (id : String) (status : LongTermStatus) (now : ℤ) (row : AgentLongTermMemoryModel) :
    AgentLongTermMemoryModel :=
  if row.id = id then { row with status, updatedAt := now } else row

theorem id_updated (id : String) (status : LongTermStatus) (now : ℤ)
    (row : AgentLongTermMemoryModel) : (updated id status now row).id = row.id := by
  unfold updated
  split <;> rfl

theorem nodup_updated {rows : List AgentLongTermMemoryModel} (h : (rows.map (·.id)).Nodup)
    (id : String) (status : LongTermStatus) (now : ℤ) :
    ((rows.map (updated id status now)).map (·.id)).Nodup := by
  have hids : (rows.map (updated id status now)).map (·.id) = rows.map (·.id) := by
    rw [List.map_map]
    exact List.map_congr_left fun row _ => id_updated id status now row
  rwa [hids]

/-- `MarkLongTermStatus`, as the statement at the reading `k` of the clock. A row counts as
affected if it is changed. -/
def markLongTermStatus (m : MySql) (k : ℕ) (db : MySQLMemoryStore) (id : String)
    (status : LongTermStatus) (now : ℤ) : Except String MySQLMemoryStore :=
  match m.failed k with
  | some e => .error e
  | none =>
    if db.longTerm.map (updated id status now) = db.longTerm then
      .error ("长期记忆 " ++ id.quote ++ " 不存在")
    else
      .ok { db with
        longTerm := db.longTerm.map (updated id status now)
        longTerm_nodup := nodup_updated db.longTerm_nodup id status now }

/-- The row of an event that has an id and a time. -/
def eventModel (event : MemoryEvent) : AgentMemoryEventModel where
  id := event.id
  memoryId := nonEmptyStringPtr event.memoryId
  tenantId := event.scope.normalized.tenantId
  teamId := event.scope.normalized.teamId
  clusterId := event.scope.normalized.clusterId
  action := event.action
  detail := event.detail
  createdAt := event.createdAt

/-- `RecordMemoryEvent`. -/
def recordMemoryEvent (db : MySQLMemoryStore) (event : MemoryEvent) : MySQLMemoryStore :=
  { db with events := db.events ++ [eventModel event] }

end MySQLMemoryStore

end MonitorSystem
