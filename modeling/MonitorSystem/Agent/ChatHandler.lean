import MonitorSystem.Agent.Deletion
import MonitorSystem.Agent.Recall
import MonitorSystem.Gateway.AuthService

/-!
# The chat handlers

`Chat` and `ChatStream` of `agent_service/internal/handler/agent` (`chat_v1_chat.go`,
`chat_v1_chat_stream.go`, `memory_helpers.go`). A chat loads the memory of its scope, has
the model answer, appends the turn to the session and extracts long-term memories from it.

The scope is made of the fields of the request body. The claims of the token stand in the
context of the request, where neither handler looks at them; the scope has no user.

What the model and the connection to the client do is part of a call, and so is what the
memory meets outside of its store.
-/

namespace MonitorSystem

open InMemoryStore

/-! ### Requests -/

/-- `ChatReq` and `ChatStreamReq`. -/
structure ChatReq where
  id : String := ""
  tenantId : String := ""
  teamId : String := ""
  clusterId : String := ""
  question : String := ""
  deriving DecidableEq, Repr

/-- `memoryScopeFromChatReq` and `memoryScopeFromChatStreamReq`. -/
def memoryScopeFromChatReq (req : ChatReq) : MemoryScope :=
  MemoryScope.normalized
    { tenantId := req.tenantId, teamId := req.teamId, clusterId := req.clusterId
      sessionId := req.id }

/-- What becomes of a question that is put to the model: there is no model, the model fails,
or it answers. -/
inductive ModelReply (α : Type) where
  | noRunner (error : String)
  | failed (error : String)
  | answered (answer : α)

/-- The two ways to chat, each with what it meets: the answer, or the connection to the
client and the chunks of the answer up to its end or to an error. -/
inductive ChatKind where
  | chat (reply : ModelReply String)
  | stream (client : Except String Unit) (reply : ModelReply (List String × Option String))

/-- The index that a chat searches: one with the answers that it gives, or the store itself
with the clock and the order of the listing. -/
inductive ChatIndex where
  | external (index : VectorIndex)
  | store (now : ℤ) (sorting : Sorting)

/-- **A chat**: the token and the body of the request, what the model does, and what the
memory meets when the context is loaded, the turn is appended and memories are
extracted. -/
structure ChatCall where
  claims : TokenClaims
  body : ChatReq
  kind : ChatKind
  index : ChatIndex
  load : Env
  append : ℕ → ℤ
  extract : Env

/-- `UserMessage`: what the model is given. -/
structure UserMessage where
  id : String
  query : String
  history : List Message
  summary : String
  longTermMemories : List LongTermMemory
  deriving DecidableEq, Repr

/-- What a chat leaves and answers. -/
structure ChatResult where
  store : InMemoryStore
  given : Option UserMessage := none
  sent : List (String × String) := []
  response : Except String (Option String)

/-! ### The handlers -/

/-- `emptyMemoryContext`. -/
def emptyMemoryContext (scope : MemoryScope) : MemoryContext where
  scope := scope.normalized
  policy := ⟨false, false, false, 0, 0, 0, 0⟩
  summary := ""
  recentMessages := []
  longTerm := []

/-- `isModelRateLimitError`. -/
def isModelRateLimitError (error : String) : Bool :=
  containsText error "429" || containsText error "Too Many Requests" ||
    containsText error "RPM limit"

/-- The answer where the model is busy. -/
def rateLimitAnswer : String :=
  "当前 AI 模型服务触发 RPM 限流，暂时无法继续生成回复。请稍后重试，或更换可用的 API Key / 模型服务端点。"

/-- The index of a chat, over the store it finds. -/
def ChatIndex.at (toLower : Char → Char) (store : InMemoryStore) : ChatIndex → VectorIndex
  | external index => index
  | .store now sorting => store.asIndex toLower now sorting

namespace ChatCall

/-- The scope of a chat. -/
def scope (c : ChatCall) : MemoryScope := memoryScopeFromChatReq c.body

/-- The question, which only `Chat` trims. -/
def query (c : ChatCall) : String :=
  match c.kind with
  | .chat _ => trimSpace c.body.question
  | .stream _ _ => c.body.question

/-- What a chat meets when it loads its context. -/
def loading (c : ChatCall) (toLower : Char → Char) (store : InMemoryStore) : Env :=
  { c.load with index := c.index.at toLower store }

/-- **The memory context of a chat**, empty if it cannot be loaded. -/
def context (c : ChatCall) (cfg : MemoryConfig) (toLower : Char → Char) (store : InMemoryStore) :
    MemoryContext :=
  match loadContext cfg store c.scope c.query (c.loading toLower store) with
  | .ok ctx => ctx
  | .error _ => emptyMemoryContext c.scope

/-- What the model is given. -/
def userMessage (c : ChatCall) (ctx : MemoryContext) : UserMessage where
  id := c.scope.sessionId
  query := c.query
  history := ctx.recentMessages
  summary := ctx.summary
  longTermMemories := ctx.longTerm

/-- The store after an answer: the turn is appended and memories are extracted, and errors
are ignored. -/
def remember (c : ChatCall) (cfg : MemoryConfig) (store : InMemoryStore) (answer : String) :
    InMemoryStore :=
  (extractDurableMemories cfg (appendTurn cfg store c.scope c.query answer c.append).1 c.scope
    c.extract).1

/-- `runChat`. -/
def runChat (c : ChatCall) (cfg : MemoryConfig) (toLower : Char → Char) (store : InMemoryStore)
    (reply : ModelReply String) : ChatResult :=
  match validateSessionScope c.scope with
  | .error e => { store, response := .error e }
  | .ok () =>
    let given := some (c.userMessage (c.context cfg toLower store))
    match reply with
    | .noRunner e => { store, given, response := .error e }
    | .failed e =>
      if isModelRateLimitError e then { store, given, response := .ok (some rateLimitAnswer) }
      else { store, given, response := .error e }
    | .answered answer =>
      { store := c.remember cfg store answer, given, response := .ok (some answer) }

/-- `runChatStream`. -/
def runChatStream (c : ChatCall) (cfg : MemoryConfig) (toLower : Char → Char)
    (store : InMemoryStore) (client : Except String Unit)
    (reply : ModelReply (List String × Option String)) : ChatResult :=
  match validateSessionScope c.scope, client with
  | .error e, _ => { store, response := .error e }
  | .ok (), .error e => { store, response := .error e }
  | .ok (), .ok () =>
    let given := some (c.userMessage (c.context cfg toLower store))
    match reply with
    | .noRunner e | .failed e =>
      { store, given, sent := [("error", e)], response := .error e }
    | .answered (chunks, error) =>
      { store :=
          if "".intercalate chunks = "" then store
          else c.remember cfg store ("".intercalate chunks)
        given
        sent := chunks.map (fun chunk => ("message", chunk)) ++
          [match error with
            | none => ("done", "Stream completed")
            | some e => ("error", e)]
        response :=
          match error with
          | none => .ok none
          | some e => .error e }

/-- **A chat.** -/
def run (c : ChatCall) (cfg : MemoryConfig) (toLower : Char → Char) (store : InMemoryStore) :
    ChatResult :=
  match c.kind with
  | .chat reply => c.runChat cfg toLower store reply
  | .stream client reply => c.runChatStream cfg toLower store client reply

end ChatCall

/-! ### What a chat leaves -/

/-- The memories that an extraction writes, from its round `k` on. They do not depend on the
store. -/
def writtenMemories (env : Env) : ℕ → List LongTermMemory → List LongTermMemory
  | _, [] => []
  | k, candidate :: candidates =>
    if isSafeLongTermContent candidate.content then
      match validateMemoryScope candidate.scope.normalized with
      | .error _ => []
      | .ok () =>
        prepared candidate (env.now (2 * k)) (env.uuid (2 * k)) ::
          match env.index.upsert (prepared candidate (env.now (2 * k)) (env.uuid (2 * k))) with
          | .error _ => []
          | .ok () => writtenMemories env (k + 1) candidates
    else writtenMemories env (k + 1) candidates

/-- **A store in which only long-term memories have been put.** -/
structure PutMemories (store store' : InMemoryStore) (items : List LongTermMemory) : Prop where
  sessions : store'.sessions = store.sessions
  policies : store'.policies = store.policies
  longTerm : store'.longTerm = items.foldl put store.longTerm

section Extraction

variable {cfg : MemoryConfig} {store store' : InMemoryStore} {scope : MemoryScope}

theorem putMemories_nil (store : InMemoryStore) : PutMemories store store [] := ⟨rfl, rfl, rfl⟩

theorem putMemories_recordEvent (env : Env) (k : ℕ) (event : MemoryEvent) :
    PutMemories store (recordEvent env k store event) [] := by
  unfold recordEvent
  split <;> exact ⟨rfl, rfl, rfl⟩

theorem PutMemories.trans {store'' : InMemoryStore} {items items' : List LongTermMemory}
    (h : PutMemories store store' items) (h' : PutMemories store' store'' items') :
    PutMemories store store'' (items ++ items') := by
  refine ⟨h'.sessions.trans h.sessions, h'.policies.trans h.policies, ?_⟩
  rw [h'.longTerm, h.longTerm, List.foldl_append]

/-- **What a saving does**: it puts the prepared memory, if its scope is accepted. -/
theorem saveLongTermMemory_eq (store : InMemoryStore) {item : LongTermMemory}
    (h : validateMemoryScope item.scope.normalized = .ok ()) (now : ℤ) (uuid : String) :
    ∃ store', store.saveLongTermMemory item now uuid = .ok (store', prepared item now uuid) ∧
      PutMemories store store' [prepared item now uuid] := by
  unfold saveLongTermMemory
  simp only [h, bind, Except.bind]
  exact ⟨_, rfl, rfl, rfl, rfl⟩

theorem saveLongTermMemory_refused (store : InMemoryStore) {item : LongTermMemory} {e : String}
    (h : validateMemoryScope item.scope.normalized = .error e) (now : ℤ) (uuid : String) :
    store.saveLongTermMemory item now uuid = .error e := by
  unfold saveLongTermMemory
  simp only [h, bind, Except.bind]

/-- **The loop of the extraction.** -/
theorem putMemories_saveCandidates (scope : MemoryScope) (env : Env) (k : ℕ)
    (candidates : List LongTermMemory) :
    PutMemories store (saveCandidates scope env k store candidates).1
      (writtenMemories env k candidates) := by
  induction candidates generalizing k store with
  | nil => exact putMemories_nil store
  | cons candidate candidates ih =>
    rw [saveCandidates, writtenMemories]
    split
    · cases hv : validateMemoryScope candidate.scope.normalized with
      | error e =>
        rw [saveLongTermMemory_refused store hv]
        exact putMemories_nil store
      | ok u =>
        obtain ⟨store', heq, hput⟩ := saveLongTermMemory_eq store hv (env.now (2 * k))
          (env.uuid (2 * k))
        rw [heq]
        simp only
        cases env.index.upsert (prepared candidate (env.now (2 * k)) (env.uuid (2 * k))) with
        | error e => exact hput
        | ok u =>
          exact hput.trans ((putMemories_recordEvent env k _).trans (ih (k + 1)))
    · exact ih (k + 1)

/-- The memories that `ExtractDurableMemories` writes. -/
def extracted (cfg : MemoryConfig) (store : InMemoryStore) (scope : MemoryScope) (env : Env) :
    List LongTermMemory :=
  let policy := resolvePolicy store.getPolicy cfg scope.normalized
  if !policy.longTermEnabled || !policy.writeEnabled then []
  else writtenMemories env 0
    (env.extract scope.normalized (store.sessionAt scope (env.now 0)).messages)

/-- **What `ExtractDurableMemories` does.** -/
theorem putMemories_extract (cfg : MemoryConfig) (store : InMemoryStore)
    (h : validateSessionScope scope = .ok ()) (env : Env) :
    PutMemories store (extractDurableMemories cfg store scope env).1
      (extracted cfg store scope env) := by
  have hn : validateSessionScope scope.normalized = .ok () := by simpa using h
  have hsession : store.sessionAt scope.normalized (env.now 0) =
      store.sessionAt scope (env.now 0) := by
    simp [sessionAt]
  unfold extractDurableMemories extracted
  simp only [hn, loadSession_eq _ hn, hsession]
  split
  · exact putMemories_nil store
  · exact putMemories_saveCandidates _ env 0 _

end Extraction

namespace ChatCall

variable {cfg : MemoryConfig} {toLower : Char → Char} {store : InMemoryStore} {c : ChatCall}

@[simp] theorem normalized_scope (c : ChatCall) : c.scope.normalized = c.scope :=
  MemoryScope.normalized_normalized _

/-- **What is remembered of a chat**: the session of its scope with the turn, and the
memories extracted from it. -/
theorem remember_eq (cfg : MemoryConfig) (store : InMemoryStore)
    (h : validateSessionScope c.scope = .ok ()) (answer : String) :
    ∃ store', ChangedSession store store' c.scope.sessionKey
        (turned (resolvePolicy store.getPolicy cfg c.scope)
          (store.sessionAt c.scope (c.append 0)) c.query answer c.append) ∧
      PutMemories store' (c.remember cfg store answer)
        (extracted cfg store' c.scope c.extract) := by
  obtain ⟨store', heq, hchanged⟩ := appendTurn_eq cfg store h c.query answer c.append
  rw [normalized_scope] at hchanged
  refine ⟨store', hchanged, ?_⟩
  unfold remember
  rw [heq]
  exact putMemories_extract cfg store' h c.extract

theorem runChat_store (c : ChatCall) (cfg : MemoryConfig) (toLower : Char → Char)
    (reply : ModelReply String) :
    (∀ store, (c.runChat cfg toLower store reply).store = store) ∨
      validateSessionScope c.scope = .ok () ∧ ∃ answer, ∀ store,
        (c.runChat cfg toLower store reply).store = c.remember cfg store answer := by
  unfold runChat
  generalize validateSessionScope c.scope = valid
  cases valid with
  | error e => exact .inl fun _ => rfl
  | ok u =>
    cases reply with
    | noRunner e => exact .inl fun _ => rfl
    | failed e =>
      refine .inl fun store => ?_
      simp only
      split <;> rfl
    | answered answer => exact .inr ⟨rfl, answer, fun _ => by simp only⟩

theorem runChatStream_store (c : ChatCall) (cfg : MemoryConfig) (toLower : Char → Char)
    (client : Except String Unit) (reply : ModelReply (List String × Option String)) :
    (∀ store, (c.runChatStream cfg toLower store client reply).store = store) ∨
      validateSessionScope c.scope = .ok () ∧ ∃ answer, ∀ store,
        (c.runChatStream cfg toLower store client reply).store = c.remember cfg store answer := by
  unfold runChatStream
  generalize validateSessionScope c.scope = valid
  cases valid with
  | error e => exact .inl fun _ => rfl
  | ok u =>
    cases client with
    | error e => exact .inl fun _ => rfl
    | ok u =>
      cases reply with
      | noRunner e => exact .inl fun _ => rfl
      | failed e => exact .inl fun _ => rfl
      | answered answer =>
        by_cases hempty : "".intercalate answer.1 = ""
        · exact .inl fun _ => if_pos hempty
        · exact .inr ⟨rfl, _, fun _ => if_neg hempty⟩

/-- **The two kinds of chats**: a chat remembers nothing, whatever the store, or it remembers
its turn with one and the same answer. -/
theorem run_store (c : ChatCall) (cfg : MemoryConfig) (toLower : Char → Char) :
    (∀ store, (c.run cfg toLower store).store = store) ∨
      validateSessionScope c.scope = .ok () ∧
        ∃ answer, ∀ store, (c.run cfg toLower store).store = c.remember cfg store answer := by
  unfold run
  split
  · exact runChat_store c cfg toLower _
  · exact runChatStream_store c cfg toLower _ _

end ChatCall

end MonitorSystem
