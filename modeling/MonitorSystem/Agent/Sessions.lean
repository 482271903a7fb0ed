import MonitorSystem.Agent.MemoryManager

/-!
# What the operations on sessions do

One equation for each operation on sessions, for a scope that the validation accepts: the
session under the key of the scope is replaced by one that is computed from it and from the
policy of the scope, and nothing else in the store changes. A scope that the validation
refuses leaves the store as it is.
-/

namespace MonitorSystem

namespace InMemoryStore

variable {store : InMemoryStore} {scope : MemoryScope}

/-- The session that `LoadSession` gives for an accepted scope. -/
def sessionAt (store : InMemoryStore) (scope : MemoryScope) (now : ℤ) : SessionMemory :=
  (store.sessions scope.sessionKey).getD { scope := scope.normalized, updatedAt := now }

theorem loadSession_eq (store : InMemoryStore) (h : validateSessionScope scope = .ok ())
    (now : ℤ) : store.loadSession scope now = .ok (store.sessionAt scope now) := by
  unfold loadSession sessionAt
  rw [validateSessionScope_normalized, h, MemoryScope.sessionKey_normalized]
  cases store.sessions scope.sessionKey <;> rfl

theorem sessionAt_storedUnder (store : InMemoryStore) (h : validateSessionScope scope = .ok ())
    (now : ℤ) : (store.sessionAt scope now).StoredUnder scope.sessionKey := by
  unfold sessionAt
  cases hs : store.sessions scope.sessionKey with
  | some session => exact store.sessions_stored _ session hs
  | none =>
    exact ⟨MemoryScope.sessionKey_normalized scope, by simpa using h,
      MemoryScope.normalized_normalized scope⟩

/-- The store with a session put under its key. -/
def putSession (store : InMemoryStore) (key : String) (session : SessionMemory)
    (h : session.StoredUnder key) : InMemoryStore :=
  { store with
    sessions := Function.update store.sessions key (some session)
    sessions_stored := sessions_stored_update store.sessions_stored h }

theorem saveSession_eq {session : SessionMemory} {key : String} (h : session.StoredUnder key) :
    store.saveSession session = .ok (store.putSession key session h) := by
  have hvalid : validateSessionScope session.scope.normalized = .ok () := by simpa using h.valid
  have hsession : normalizedSession session = session := by
    simp [normalizedSession, h.normalized]
  have hkey : session.scope.normalized.sessionKey = key := by simpa using h.key_eq
  unfold saveSession
  split
  · next e he =>
    rw [hvalid] at he
    cases he
  · simp only [putSession, hsession, hkey]

@[simp] theorem putSession_sessions {key : String} {session : SessionMemory}
    (h : session.StoredUnder key) :
    (store.putSession key session h).sessions =
      Function.update store.sessions key (some session) := rfl

@[simp] theorem putSession_policies {key : String} {session : SessionMemory}
    (h : session.StoredUnder key) :
    (store.putSession key session h).policies = store.policies := rfl

@[simp] theorem putSession_longTerm {key : String} {session : SessionMemory}
    (h : session.StoredUnder key) :
    (store.putSession key session h).longTerm = store.longTerm := rfl

@[simp] theorem putSession_getPolicy {key : String} {session : SessionMemory}
    (h : session.StoredUnder key) :
    (store.putSession key session h).getPolicy = store.getPolicy := rfl

end InMemoryStore

open InMemoryStore

variable {cfg : MemoryConfig} {store : InMemoryStore} {scope : MemoryScope}

/-- A store in which only the session under a key has changed. -/
structure ChangedSession (store store' : InMemoryStore) (key : String)
    (session : SessionMemory) : Prop where
  sessions : store'.sessions = Function.update store.sessions key (some session)
  policies : store'.policies = store.policies
  longTerm : store'.longTerm = store.longTerm

theorem changedSession_putSession {key : String} {session : SessionMemory}
    (h : session.StoredUnder key) :
    ChangedSession store (store.putSession key session h) key session :=
  ⟨rfl, rfl, rfl⟩

/-- The session that a summary leaves. -/
def summarizedSession (policy : EffectivePolicy) (session : SessionMemory) (now : ℤ) :
    SessionMemory :=
  (summarized policy session now).getD session

@[simp] theorem summarizedSession_scope (policy : EffectivePolicy) (session : SessionMemory)
    (now : ℤ) : (summarizedSession policy session now).scope = session.scope := by
  unfold summarizedSession summarized
  split <;> rfl

@[simp] theorem summarizedSession_messages (policy : EffectivePolicy) (session : SessionMemory)
    (now : ℤ) : (summarizedSession policy session now).messages = session.messages := by
  unfold summarizedSession summarized
  split <;> rfl

/-- The session that a turn leaves. -/
def turned (policy : EffectivePolicy) (session : SessionMemory)
    (userMessage assistantMessage : String) (now : ℕ → ℤ) : SessionMemory :=
  summarizedSession policy (appended policy session userMessage assistantMessage (now 1)) (now 3)

theorem SessionMemory.StoredUnder.appended {session : SessionMemory} {key : String}
    (h : session.StoredUnder key) (policy : EffectivePolicy) (u a : String) (now : ℤ) :
    (appended policy session u a now).StoredUnder key :=
  ⟨h.key_eq, h.valid, h.normalized⟩

theorem SessionMemory.StoredUnder.summarizedSession {session : SessionMemory} {key : String}
    (h : session.StoredUnder key) (policy : EffectivePolicy) (now : ℤ) :
    (summarizedSession policy session now).StoredUnder key := by
  constructor <;> rw [summarizedSession_scope]
  exacts [h.key_eq, h.valid, h.normalized]

/-- **What `SummarizeSession` does.** A session that holds no message is not saved, so an
absent one stays absent. -/
theorem summarizeSession_eq (cfg : MemoryConfig) (store : InMemoryStore)
    (h : validateSessionScope scope = .ok ()) (now : ℕ → ℤ) :
    ∃ store', summarizeSession cfg store scope now = (store', .ok ()) ∧
      ((store' = store ∧ summarized (resolvePolicy store.getPolicy cfg scope.normalized)
          (store.sessionAt scope (now 0)) (now 1) = none) ∨
        ∃ session, summarized (resolvePolicy store.getPolicy cfg scope.normalized)
            (store.sessionAt scope (now 0)) (now 1) = some session ∧
          ChangedSession store store' scope.sessionKey session) := by
  have hn : validateSessionScope scope.normalized = .ok () := by simpa using h
  have hsession : store.sessionAt scope.normalized (now 0) = store.sessionAt scope (now 0) := by
    simp [sessionAt]
  unfold summarizeSession
  simp only [hn, loadSession_eq _ hn, hsession]
  cases hs : summarized (resolvePolicy store.getPolicy cfg scope.normalized)
    (store.sessionAt scope (now 0)) (now 1) with
  | none => exact ⟨store, rfl, .inl ⟨rfl, rfl⟩⟩
  | some session =>
    have hstored : session.StoredUnder scope.sessionKey := by
      have := (sessionAt_storedUnder store h (now 0)).summarizedSession
        (resolvePolicy store.getPolicy cfg scope.normalized) (now 1)
      rwa [summarizedSession, hs] at this
    simp only [saveSession_eq hstored]
    exact ⟨_, rfl, .inr ⟨session, rfl, ⟨rfl, rfl, rfl⟩⟩⟩

/-- **What `AppendTurn` does.** -/
theorem appendTurn_eq (cfg : MemoryConfig) (store : InMemoryStore)
    (h : validateSessionScope scope = .ok ()) (u a : String) (now : ℕ → ℤ) :
    ∃ store', appendTurn cfg store scope u a now = (store', .ok ()) ∧
      ChangedSession store store' scope.sessionKey
        (turned (resolvePolicy store.getPolicy cfg scope.normalized)
          (store.sessionAt scope (now 0)) u a now) := by
  have hn : validateSessionScope scope.normalized = .ok () := by simpa using h
  have hsession : store.sessionAt scope.normalized (now 0) = store.sessionAt scope (now 0) := by
    simp [sessionAt]
  have hstored := (sessionAt_storedUnder store h (now 0)).appended
    (resolvePolicy store.getPolicy cfg scope.normalized) u a (now 1)
  unfold appendTurn
  simp only [hn, loadSession_eq _ hn, hsession, saveSession_eq hstored]
  generalize hmid : store.putSession scope.sessionKey _ hstored = mid
  have hpolicy : mid.getPolicy = store.getPolicy := by rw [← hmid]; rfl
  have hat : mid.sessionAt scope.normalized (now 2) =
      appended (resolvePolicy store.getPolicy cfg scope.normalized) (store.sessionAt scope (now 0))
        u a (now 1) := by
    simp [← hmid, sessionAt]
  obtain ⟨store', heq, hchanged⟩ := summarizeSession_eq cfg mid hn fun k => now (k + 2)
  refine ⟨store', heq, ?_⟩
  simp only [hpolicy, hat, MemoryScope.normalized_normalized] at hchanged
  rw [turned, summarizedSession]
  rcases hchanged with ⟨rfl, hnone⟩ | ⟨session, hsome, hchanged⟩
  · rw [hnone, Option.getD_none, ← hmid]
    exact ⟨rfl, rfl, rfl⟩
  · rw [hsome]
    subst hmid
    refine ⟨?_, hchanged.policies, hchanged.longTerm⟩
    rw [hchanged.sessions]
    simp

/-- A refused scope changes nothing. -/
theorem appendTurn_refused {e : String} (h : validateSessionScope scope = .error e) (u a : String)
    (now : ℕ → ℤ) : appendTurn cfg store scope u a now = (store, .error e) := by
  unfold appendTurn
  rw [validateSessionScope_normalized, h]

theorem summarizeSession_refused {e : String} (h : validateSessionScope scope = .error e)
    (now : ℕ → ℤ) : summarizeSession cfg store scope now = (store, .error e) := by
  unfold summarizeSession
  rw [validateSessionScope_normalized, h]

/-- The operations depend on the normalised scope only. -/
theorem appendTurn_congr {scope' : MemoryScope} (h : scope.normalized = scope'.normalized)
    (u a : String) (now : ℕ → ℤ) :
    appendTurn cfg store scope u a now = appendTurn cfg store scope' u a now := by
  unfold appendTurn
  rw [h]

theorem summarizeSession_congr {scope' : MemoryScope} (h : scope.normalized = scope'.normalized)
    (now : ℕ → ℤ) :
    summarizeSession cfg store scope now = summarizeSession cfg store scope' now := by
  unfold summarizeSession
  rw [h]

theorem trimMessages_of_le {α : Type} {messages : List α} {limit : ℤ}
    (h : (messages.length : ℤ) ≤ limit) : trimMessages messages limit = messages :=
  if_pos (.inr h)

/-! ### Policies -/

@[simp] theorem validatePolicyScope_normalized (level : ScopeLevel) (scope : MemoryScope) :
    validatePolicyScope level scope.normalized = validatePolicyScope level scope := by
  cases level <;> simp only [validatePolicyScope, MemoryScope.normalized_normalized]

theorem setMemoryPolicy_eq {level : ScopeLevel} (h : validatePolicyScope level scope = .ok ())
    (policy : MemoryPolicy) :
    setMemoryPolicy store level scope policy = (store.setPolicy level scope policy, .ok ()) := by
  unfold setMemoryPolicy setPolicy
  simp only [validatePolicyScope_normalized, h, MemoryScope.policyKey_normalized]

theorem setMemoryPolicy_refused {level : ScopeLevel} {e : String}
    (h : validatePolicyScope level scope = .error e) (policy : MemoryPolicy) :
    setMemoryPolicy store level scope policy = (store, .error e) := by
  unfold setMemoryPolicy
  rw [validatePolicyScope_normalized, h]

/-! ### Loading a context -/

theorem validateMemoryScope_of_session (h : validateSessionScope scope = .ok ()) :
    validateMemoryScope scope = .ok () :=
  validateMemoryScope_ok_iff.mpr
    ⟨(validateSessionScope_ok_iff.mp h).1, (validateSessionScope_ok_iff.mp h).2.1⟩

theorem validateMemoryScope_normalized_of_session (h : validateSessionScope scope = .ok ()) :
    validateMemoryScope scope.normalized = .ok () := by
  rw [validateMemoryScope_normalized]
  exact validateMemoryScope_of_session h

/-- The active memories that a recall lists. -/
def recallable (store : InMemoryStore) (scope : MemoryScope) (now : ℤ) : List LongTermMemory :=
  store.selected { scope, status := .active } now

/-- A memory that is expired at a time. -/
def LongTermMemory.ExpiredAt (item : LongTermMemory) (now : ℤ) : Prop :=
  ∃ t ∈ item.expiresAt, t < now

instance LongTermMemory.decidableExpiredAt (item : LongTermMemory) (now : ℤ) :
    Decidable (item.ExpiredAt now) :=
  inferInstanceAs (Decidable (∃ t ∈ item.expiresAt, t < now))

/-- The memory is one of the team. -/
def LongTermMemory.OfTeam (item : LongTermMemory) (tenantId teamId : String) : Prop :=
  item.scope.tenantId = tenantId ∧ item.scope.teamId = teamId

instance LongTermMemory.decidableOfTeam (item : LongTermMemory) (tenantId teamId : String) :
    Decidable (item.OfTeam tenantId teamId) :=
  inferInstanceAs (Decidable (item.scope.tenantId = tenantId ∧ item.scope.teamId = teamId))

/-- **What a recall lists**: the active unexpired memories of the tenant and the team, and of
the cluster if the scope has one. -/
theorem mem_recallable_iff {now : ℤ} (h : validateMemoryScope scope = .ok ())
    {item : LongTermMemory} :
    item ∈ recallable store scope now ↔ item ∈ store.longTerm ∧
      item.scope.tenantId = scope.normalized.tenantId ∧
      item.scope.teamId = scope.normalized.teamId ∧
      (scope.normalized.clusterId = "" ∨ item.scope.clusterId = scope.normalized.clusterId) ∧
      item.status = .active ∧ ¬ item.ExpiredAt now := by
  obtain ⟨ht, hm⟩ := validateMemoryScope_ok_iff.mp h
  simp only [recallable, selected, List.mem_filter, matchMemory, decide_eq_true_eq]
  constructor
  · rintro ⟨hmem, -, htenant, hteam, hcluster, -, hstatus, -, -, hexpired⟩
    exact ⟨hmem, htenant.resolve_left ht, hteam.resolve_left hm, hcluster,
      hstatus.resolve_left (by simp), hexpired⟩
  · rintro ⟨hmem, htenant, hteam, hcluster, hstatus, hexpired⟩
    exact ⟨hmem, .inl trivial, .inr htenant, .inr hteam, hcluster, .inl trivial, .inr hstatus,
      .inr (by simp [hstatus]), .inl hstatus, hexpired⟩

/-- There is one memory to an id. -/
theorem InMemoryStore.eq_of_id_eq {a b : LongTermMemory} (ha : a ∈ store.longTerm)
    (hb : b ∈ store.longTerm) (h : a.id = b.id) : a = b :=
  List.inj_on_of_nodup_map store.longTerm_nodup ha hb h

/-- The limit of a selector plays no part in what it selects. -/
theorem selected_limit (store : InMemoryStore) (scope : MemoryScope) (limit now : ℤ) :
    store.selected { scope, status := .active, limit } now = recallable store scope now := by
  simp only [recallable, selected, matchMemory]

/-- **What `recallLongTerm` gives.** -/
theorem recallLongTerm_eq (store : InMemoryStore) (h : validateMemoryScope scope = .ok ())
    (query : String) (policy : EffectivePolicy) (env : Env) :
    recallLongTerm store scope query policy env =
      (env.index.search { scope, query, limit := policy.recallLimit }).map fun ids =>
        let items := limited policy.recallLimit
          (env.sorting.sort (recallable store scope (env.now 1)))
        if ids = [] then items
        else (items.filter fun item => item.id ∈ ids).map fun item =>
          { item with lastUsedAt := some (env.now 2) } := by
  unfold recallLongTerm
  rw [listLongTermMemories_eq, selected_limit]
  swap
  · exact h
  generalize limited policy.recallLimit _ = items
  cases env.index.search { scope, query, limit := policy.recallLimit } with
  | error e => rfl
  | ok ids =>
    change (if ids = [] then Except.ok items else Except.ok _) = _
    simp only [Except.map]
    split <;> rfl

/-- The long-term memories of a context. -/
def recalled (cfg : MemoryConfig) (store : InMemoryStore) (scope : MemoryScope) (query : String)
    (env : Env) : Except String (List LongTermMemory) :=
  let policy := resolvePolicy store.getPolicy cfg scope.normalized
  if policy.longTermEnabled && policy.recallEnabled then
    recallLongTerm store scope.normalized query policy env
  else .ok []

/-- The context with these long-term memories. -/
def contextWith (cfg : MemoryConfig) (store : InMemoryStore) (scope : MemoryScope) (now : ℤ)
    (longTerm : List LongTermMemory) : MemoryContext :=
  let policy := resolvePolicy store.getPolicy cfg scope.normalized
  { scope := scope.normalized
    policy
    summary := (store.sessionAt scope now).summary
    recentMessages := trimMessages (store.sessionAt scope now).messages policy.recentWindow
    longTerm }

/-- **What `LoadContext` gives.** -/
theorem loadContext_eq (cfg : MemoryConfig) (store : InMemoryStore)
    (h : validateSessionScope scope = .ok ()) (query : String) (env : Env) :
    loadContext cfg store scope query env =
      (recalled cfg store scope query env).map (contextWith cfg store scope (env.now 0)) := by
  have hn : validateSessionScope scope.normalized = .ok () := by simpa using h
  have hsession : store.sessionAt scope.normalized (env.now 0) =
      store.sessionAt scope (env.now 0) := by
    simp [sessionAt]
  unfold loadContext recalled contextWith
  rw [hn, loadSession_eq _ hn, hsession]
  generalize resolvePolicy store.getPolicy cfg scope.normalized = policy
  cases hon : policy.longTermEnabled && policy.recallEnabled with
  | false =>
    simp only [hon, Bool.false_eq_true, if_false]
    rfl
  | true =>
    simp only [hon, if_true]
    cases recallLongTerm store scope.normalized query policy env <;> rfl

theorem loadContext_refused {e : String} (h : validateSessionScope scope = .error e)
    (query : String) (env : Env) : loadContext cfg store scope query env = .error e := by
  unfold loadContext
  rw [validateSessionScope_normalized, h]
  rfl

/-- **The memories of a context are those of the listing**, some of them with the time of
their use. -/
theorem mem_longTerm_of_loadContext {query : String} {env : Env} {ctx : MemoryContext}
    (h : loadContext cfg store scope query env = .ok ctx) {m : LongTermMemory}
    (hm : m ∈ ctx.longTerm) :
    ∃ item ∈ recallable store scope.normalized (env.now 1),
      m = item ∨ m = { item with lastUsedAt := some (env.now 2) } := by
  cases hv : validateSessionScope scope with
  | error e =>
    rw [loadContext_refused hv] at h
    cases h
  | ok _ =>
    have hscope := validateMemoryScope_normalized_of_session hv
    rw [loadContext_eq cfg store hv, recalled, recallLongTerm_eq store hscope] at h
    simp only at h
    split at h
    · cases hs : env.index.search _ with
      | error e =>
        rw [hs] at h
        cases h
      | ok ids =>
        rw [hs] at h
        obtain rfl := Except.ok.inj h
        change m ∈ (if ids = [] then _ else _) at hm
        split at hm
        · exact ⟨m, by simpa using mem_limited hm, .inl rfl⟩
        · obtain ⟨item, hitem, rfl⟩ := List.mem_map.mp hm
          exact ⟨item, by simpa using mem_limited (List.mem_filter.mp hitem).1, .inr rfl⟩
    · obtain rfl := Except.ok.inj h
      cases hm

end MonitorSystem
