import MonitorSystem.Agent.MemoryStore

/-!
# The memory manager

`InMemoryManager` of `agent_service/internal/session/memory/in_memory.go` over
`InMemoryStore`. An operation takes the store it finds and yields the store it leaves, with
its result or the error at which it stopped: what was written before an error stays.

`Env` is what a call meets: the readings of the clock, the new ids, the order of the
listing, the answers of the vector index, and whether an event could be recorded. The
function `extractCandidates` is not part of the repository; it is the field `extract`.
-/

namespace MonitorSystem

/-! ### Contents that may be kept -/

/-- A regular expression whose repetitions are repetitions of one class of characters. -/
inductive Pattern where
  | empty
  | one (p : Char → Bool)
  | many (p : Char → Bool)
  | seq (a b : Pattern)
  | alt (a b : Pattern)

namespace Pattern

/-- What may be left of a text behind a repetition. -/
def manyRests (p : Char → Bool) : List Char → List (List Char)
  | [] => [[]]
  | c :: cs => (c :: cs) :: if p c then manyRests p cs else []

/-- What may be left of a text behind a match at its beginning. -/
def rests : Pattern → List Char → List (List Char)
  | empty, l => [l]
  | one _, [] => []
  | one p, c :: cs => if p c then [cs] else []
  | many p, l => manyRests p l
  | seq a b, l => (rests a l).flatMap (rests b)
  | alt a b, l => rests a l ++ rests b l

/-- `MatchString`: a match somewhere in the text. -/
def matchString (pattern : Pattern) (s : String) : Bool :=
  s.toList.tails.any fun l => !(pattern.rests l).isEmpty

/-- A word, in upper or lower case. -/
def word (s : String) : Pattern :=
  s.toList.foldr (fun c rest => seq (one fun x => foldChar x = c) rest) empty

/-- One of some words. -/
def words (ws : List String) : Pattern :=
  ws.foldr (fun w rest => alt (word w) rest) (one fun _ => false)

/-- `\s`. -/
def space (c : Char) : Bool := c ∈ ['\t', '\n', '\x0c', '\r', ' ']

/-- One or more characters of a class. -/
def plus (p : Char → Bool) : Pattern := seq (one p) (many p)

end Pattern

/-- A letter or a digit, in upper or lower case. -/
def isAlnumFold (c : Char) : Bool := (foldChar c).isLower || (foldChar c).isDigit

open Pattern in
/-- `sensitivePatterns`. -/
def sensitivePatterns : List Pattern :=
  [seq (words ["password", "passwd", "secret", "token", "apikey", "api_key", "api-key",
      "authorization"]) (seq (many space) (one fun c => c ∈ [':', '='])),
    seq (word "bearer") (seq (plus space) (plus fun c => isAlnumFold c || c ∈ ['.', '_', '-'])),
    seq (word "sk-") (plus fun c => isAlnumFold c || c ∈ ['_', '-']),
    seq (words ["密码", "密钥", "令牌", "凭据"]) (seq (many space) (one fun c => c ∈ [':', '：']))]

/-- `isSafeLongTermContent`. -/
def isSafeLongTermContent (content : String) : Bool :=
  trimSpace content ≠ "" && sensitivePatterns.all fun p => !p.matchString (trimSpace content)

/-! ### What a call meets -/

/-- `VectorIndex`: the answers of an index during one call. -/
structure VectorIndex where
  search : MemorySelector → Except String (List String)
  upsert : LongTermMemory → Except String Unit
  delete : List String → Except String Unit

/-- What one call meets. -/
structure Env where
  now : ℕ → ℤ
  uuid : ℕ → String
  sorting : Sorting
  index : VectorIndex
  recorded : ℕ → Bool
  extract : MemoryScope → List Message → List LongTermMemory

/-- The store as the index of its own manager. -/
def InMemoryStore.asIndex (toLower : Char → Char) (store : InMemoryStore) (now : ℤ)
    (sorting : Sorting) : VectorIndex where
  search selector := store.search toLower selector now sorting
  upsert _ := .ok ()
  delete _ := .ok ()

/-- A call whose index finds nothing and accepts everything. -/
def quietEnv : Env where
  now _ := 0
  uuid k := .ofList (List.replicate (k + 1) '0')
  sorting := .merge
  index := ⟨fun _ => .ok [], fun _ => .ok (), fun _ => .ok ()⟩
  recorded _ := true
  extract _ _ := []

/-- `NewManager`: the configuration that a manager works with. -/
def newManager (cfg : MemoryConfig) : MemoryConfig :=
  { cfg with
    recentWindow := positiveOrDefault cfg.recentWindow defaultConfig.recentWindow
    summaryWindow := positiveOrDefault cfg.summaryWindow defaultConfig.summaryWindow
    recallLimit := positiveOrDefault cfg.recallLimit defaultConfig.recallLimit
    tokenBudget := positiveOrDefault cfg.tokenBudget defaultConfig.tokenBudget }

/-! ### Sessions -/

/-- `trimMessages`. -/
def trimMessages {α : Type} (messages : List α) (limit : ℤ) : List α :=
  if limit ≤ 0 ∨ (messages.length : ℤ) ≤ limit then messages
  else messages.drop (messages.length - limit.toNat)

/-- The messages of one turn, without those that are blank. -/
def turnMessages (userMessage assistantMessage : String) : List Message :=
  (if trimSpace userMessage ≠ "" then [⟨.user, trimSpace userMessage⟩] else []) ++
    if trimSpace assistantMessage ≠ "" then [⟨.assistant, trimSpace assistantMessage⟩] else []

/-- The session that `AppendTurn` saves. -/
def appended (policy : EffectivePolicy) (session : SessionMemory)
    (userMessage assistantMessage : String) (now : ℤ) : SessionMemory :=
  { session with
    messages := trimMessages (session.messages ++ turnMessages userMessage assistantMessage)
      policy.recentWindow
    updatedAt := now }

/-- The line of a message in a summary. -/
def summaryLine (m : Message) : String :=
  (match m.role with
    | .user => "用户"
    | .assistant => "助手") ++ "：" ++ trimSpace m.content

/-- The summary of a window of messages. -/
def summaryText (policy : EffectivePolicy) (window : List Message) : String :=
  let summary := "\n".intercalate
    ((window.filter fun m => trimSpace m.content ≠ "").map summaryLine)
  if (summary.toList.length : ℤ) > policy.tokenBudget then
    .ofList (summary.toList.drop (summary.toList.length - policy.tokenBudget.toNat))
  else summary

/-- The session that `SummarizeSession` saves, if there is something to summarise. -/
def summarized (policy : EffectivePolicy) (session : SessionMemory) (now : ℤ) :
    Option SessionMemory :=
  if trimMessages session.messages policy.summaryWindow = [] then none
  else some { session with
    summary := summaryText policy (trimMessages session.messages policy.summaryWindow)
    updatedAt := now }

/-- `SummarizeSession`. -/
def summarizeSession (cfg : MemoryConfig) (store : InMemoryStore) (scope : MemoryScope)
    (now : ℕ → ℤ) : InMemoryStore × Except String Unit :=
  match validateSessionScope scope.normalized with
  | .error e => (store, .error e)
  | .ok () =>
    match store.loadSession scope.normalized (now 0) with
    | .error e => (store, .error e)
    | .ok session =>
      match summarized (resolvePolicy store.getPolicy cfg scope.normalized) session (now 1) with
      | none => (store, .ok ())
      | some session =>
        match store.saveSession session with
        | .error e => (store, .error e)
        | .ok store => (store, .ok ())

/-- `AppendTurn`. -/
def appendTurn (cfg : MemoryConfig) (store : InMemoryStore) (scope : MemoryScope)
    (userMessage assistantMessage : String) (now : ℕ → ℤ) : InMemoryStore × Except String Unit :=
  match validateSessionScope scope.normalized with
  | .error e => (store, .error e)
  | .ok () =>
    match store.loadSession scope.normalized (now 0) with
    | .error e => (store, .error e)
    | .ok session =>
      match store.saveSession (appended (resolvePolicy store.getPolicy cfg scope.normalized)
        session userMessage assistantMessage (now 1)) with
      | .error e => (store, .error e)
      | .ok store => summarizeSession cfg store scope.normalized fun k => now (k + 2)

/-! ### Recall -/

/-- `MemoryContext`. -/
structure MemoryContext where
  scope : MemoryScope
  policy : EffectivePolicy
  summary : String
  recentMessages : List Message
  longTerm : List LongTermMemory
  deriving DecidableEq, Repr

/-- `recallLongTerm`. -/
def recallLongTerm (store : InMemoryStore) (scope : MemoryScope) (query : String)
    (policy : EffectivePolicy) (env : Env) : Except String (List LongTermMemory) := do
  let ids ← env.index.search { scope, query, limit := policy.recallLimit }
  let items ← store.listLongTermMemories
    { scope, status := .active, limit := policy.recallLimit } (env.now 1) env.sorting
  if ids = [] then .ok items
  else .ok ((items.filter fun item => item.id ∈ ids).map fun item =>
    { item with lastUsedAt := some (env.now 2) })

/-- `LoadContext`. -/
def loadContext (cfg : MemoryConfig) (store : InMemoryStore) (scope : MemoryScope)
    (query : String) (env : Env) : Except String MemoryContext := do
  validateSessionScope scope.normalized
  let policy := resolvePolicy store.getPolicy cfg scope.normalized
  let session ← store.loadSession scope.normalized (env.now 0)
  let longTerm ←
    if policy.longTermEnabled && policy.recallEnabled then
      recallLongTerm store scope.normalized query policy env
    else .ok []
  .ok
    { scope := scope.normalized
      policy
      summary := session.summary
      recentMessages := trimMessages session.messages policy.recentWindow
      longTerm }

/-! ### Long-term memories -/

/-- `RecordMemoryEvent` as the manager calls it: its failure is ignored. -/
def recordEvent (env : Env) (k : ℕ) (store : InMemoryStore) (event : MemoryEvent) :
    InMemoryStore :=
  if env.recorded k then store.recordMemoryEvent event else store

/-- The loop of `ExtractDurableMemories` from its round `k` on. -/
def saveCandidates (scope : MemoryScope) (env : Env) :
    ℕ → InMemoryStore → List LongTermMemory → InMemoryStore × Except String Unit
  | _, store, [] => (store, .ok ())
  | k, store, candidate :: candidates =>
    if isSafeLongTermContent candidate.content then
      match store.saveLongTermMemory candidate (env.now (2 * k)) (env.uuid (2 * k)) with
      | .error e => (store, .error e)
      | .ok (store, saved) =>
        match env.index.upsert saved with
        | .error e => (store, .error e)
        | .ok () =>
          saveCandidates scope env (k + 1)
            (recordEvent env k store
              { id := env.uuid (2 * k + 1), memoryId := saved.id, scope, action := "create"
                detail := "从会话中自动抽取长期记忆", createdAt := env.now (2 * k + 1) })
            candidates
    else saveCandidates scope env (k + 1) store candidates

/-- `ExtractDurableMemories`. -/
def extractDurableMemories (cfg : MemoryConfig) (store : InMemoryStore) (scope : MemoryScope)
    (env : Env) : InMemoryStore × Except String Unit :=
  match validateSessionScope scope.normalized with
  | .error e => (store, .error e)
  | .ok () =>
    let policy := resolvePolicy store.getPolicy cfg scope.normalized
    if !policy.longTermEnabled || !policy.writeEnabled then (store, .ok ())
    else
      match store.loadSession scope.normalized (env.now 0) with
      | .error e => (store, .error e)
      | .ok session =>
        saveCandidates scope.normalized env 0 store
          (env.extract scope.normalized session.messages)

/-- `SetPolicy`. -/
def setMemoryPolicy (store : InMemoryStore) (level : ScopeLevel) (scope : MemoryScope)
    (policy : MemoryPolicy) : InMemoryStore × Except String Unit :=
  match validatePolicyScope level scope.normalized with
  | .error e => (store, .error e)
  | .ok () => (store.setPolicy level scope.normalized policy, .ok ())

/-- `ListMemories`. -/
def listMemories (store : InMemoryStore) (selector : MemorySelector) (env : Env) :
    Except String (List LongTermMemory) := do
  validateMemoryScope selector.scope
  store.listLongTermMemories selector (env.now 0) env.sorting

/-- The loop of `DeleteMemories` that marks the memories as being deleted. -/
def markDeleting (env : Env) :
    ℕ → InMemoryStore → List LongTermMemory → InMemoryStore × Except String Unit
  | _, store, [] => (store, .ok ())
  | k, store, item :: items =>
    match store.markLongTermStatus item.id .deleting (env.now k) with
    | .error e => (store, .error e)
    | .ok store => markDeleting env (k + 1) store items

/-- The loop that marks the memories as deleted and records it. -/
def markDeleted (env : Env) (action detail : String) :
    ℕ → InMemoryStore → List LongTermMemory → InMemoryStore × Except String Unit
  | _, store, [] => (store, .ok ())
  | k, store, item :: items =>
    match store.markLongTermStatus item.id .deleted (env.now k) with
    | .error e => (store, .error e)
    | .ok store =>
      markDeleted env action detail (k + 2)
        (recordEvent env k store
          { id := env.uuid k, memoryId := item.id, scope := item.scope, action, detail
            createdAt := env.now (k + 1) })
        items

/-- The ids under which the index has the memories. -/
def vectorIds (items : List LongTermMemory) : List String :=
  (items.filter fun item => item.vectorId ≠ "").map (·.vectorId)

/-- `DeleteMemories`. -/
def deleteMemories (store : InMemoryStore) (selector : MemorySelector) (env : Env) :
    InMemoryStore × Except String Unit :=
  match validateMemoryScope selector.scope with
  | .error e => (store, .error e)
  | .ok () =>
    match store.listLongTermMemories selector (env.now 0) env.sorting with
    | .error e => (store, .error e)
    | .ok items =>
      match markDeleting env 1 store items with
      | (store, .error e) => (store, .error e)
      | (store, .ok ()) =>
        match env.index.delete (vectorIds items) with
        | .error e => (store, .error e)
        | .ok () => markDeleted env "delete" "删除长期记忆" (items.length + 1) store items

/-- `RetryDeletingMemories`. -/
def retryDeletingMemories (store : InMemoryStore) (selector : MemorySelector) (env : Env) :
    InMemoryStore × Except String Unit :=
  match validateMemoryScope selector.scope with
  | .error e => (store, .error e)
  | .ok () =>
    match store.listLongTermMemories { selector with status := .deleting, includeDeleted := true }
      (env.now 0) env.sorting with
    | .error e => (store, .error e)
    | .ok items =>
      match env.index.delete (vectorIds items) with
      | .error e => (store, .error e)
      | .ok () => markDeleted env "delete_retry" "重试清理长期记忆向量索引" 1 store items

end MonitorSystem
