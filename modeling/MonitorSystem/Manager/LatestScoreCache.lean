import MonitorSystem.Library.Delimited
import MonitorSystem.Library.Runs
import MonitorSystem.Manager.HostManager
import MonitorSystem.Manager.QueryScope

/-!
# The cache of latest scores

`QueryServiceImpl::QueryLatestScore` (`manager/src/rpc/QueryService.cpp`) answers from
Redis when it can: it looks its scope's key up, returns what it finds there, and otherwise
queries the database and stores the serialised response under the key. Redis is shared by
all scopes, all calls and, under other keys, by the scores `HostManager` publishes.

A call is cut at its accesses to what is shared, so that any number of calls interleave:
the check of its scope, the read of the cache, the query, the write to the cache. The
entries carry who wrote them.

The key is the three identifiers joined by `:`, with nothing done about a `:` inside them.
In every run a response served from the cache was computed by a call whose key is the same
(`LatestScore.Traced.run`); whether that call had the same scope depends on the scope
alone, by `Delimited.join_unique_iff`.
-/

namespace MonitorSystem

/-! ### Records and response -/

/-- `ServerStatus`. -/
inductive ServerStatus where
  | online
  | offline
  deriving DecidableEq, Repr

/-- `ServerScoreSummary`, a record of the query manager. `lastUpdated` is in nanoseconds. -/
structure ServerScoreSummary where
  serverName : String
  score : ℚ := 0
  lastUpdated : ℤ
  status : ServerStatus := .online
  cpuPercent : ℚ := 0
  memUsedPercent : ℚ := 0
  diskUtilPercent : ℚ := 0
  loadAvg1 : ℚ := 0
  deriving DecidableEq, Repr

/-- `ClusterStats`, of the query manager and of the response alike. -/
structure ClusterStats where
  totalServers : ℤ := 0
  onlineServers : ℤ := 0
  offlineServers : ℤ := 0
  avgScore : ℚ := 0
  maxScore : ℚ := 0
  minScore : ℚ := 0
  bestServer : String := ""
  worstServer : String := ""
  deriving DecidableEq, Repr

/-- `google::protobuf::Timestamp`. -/
structure Timestamp where
  seconds : ℤ
  nanos : ℤ
  deriving DecidableEq, Repr

/-- `setTimestamp`: whole seconds, rounded towards the epoch. -/
def setTimestamp (tp : ℤ) : Timestamp := ⟨tp.tdiv 1000000000, 0⟩

/-- The message of a server in the response. -/
structure ScoreSummaryMessage where
  serverName : String
  score : ℚ
  lastUpdate : Timestamp
  status : ServerStatus
  cpuPercent : ℚ
  memUsedPercent : ℚ
  diskUtilPercent : ℚ
  loadAvg1 : ℚ
  deriving DecidableEq, Repr

/-- `QueryLatestScoreResponse`. -/
structure LatestScoreResponse where
  servers : List ScoreSummaryMessage := []
  clusterStats : Option ClusterStats := none
  deriving DecidableEq, Repr

/-- What `queryLatestServerScores` returns, its error text included. -/
structure LatestScores where
  records : List ServerScoreSummary
  stats : ClusterStats
  error : String := ""
  deriving DecidableEq, Repr

/-- The message of a record. -/
def ServerScoreSummary.message (rec : ServerScoreSummary) : ScoreSummaryMessage where
  serverName := rec.serverName
  score := rec.score
  lastUpdate := setTimestamp rec.lastUpdated
  status := rec.status
  cpuPercent := rec.cpuPercent
  memUsedPercent := rec.memUsedPercent
  diskUtilPercent := rec.diskUtilPercent
  loadAvg1 := rec.loadAvg1

/-- What the handler adds to its response after the query. The servers are appended to
whatever the response holds already. -/
def LatestScoreResponse.fill (response : LatestScoreResponse) (res : LatestScores) :
    LatestScoreResponse where
  servers := response.servers ++ res.records.map (·.message)
  clusterStats := some res.stats

/-- The protobuf encoding of the response. `parseFromString` also returns what it has read
when it fails; what `serializeToString` has written it reads back. -/
structure Wire where
  serializeToString : LatestScoreResponse → Option String
  parseFromString : String → LatestScoreResponse × Bool
  parse_serialize : ∀ r b, serializeToString r = some b → parseFromString b = (r, true)

/-- **`latestScoreCacheKey`.** -/
def latestScoreCacheKey (scope : QueryScope) : String :=
  "manager:query:latest_score:" ++ scope.tenantId ++ ":" ++ scope.teamId ++ ":" ++ scope.clusterId

namespace LatestScore

/-! ### Calls and cache -/

/-- Who wrote an entry of the cache. -/
inductive Origin where
  /-- This call of `QueryLatestScore`. -/
  | call (c : ℕ)
  /-- `HostManager`, publishing a host's score. -/
  | hostManager
  deriving DecidableEq, Repr

/-- An entry of the cache. -/
structure Entry where
  value : String
  origin : Origin
  deriving DecidableEq, Repr

/-- How a call has ended. -/
inductive Outcome where
  | failed (status : Status)
  /-- Answered from an entry of the cache. -/
  | cached (response : LatestScoreResponse) (origin : Origin)
  /-- Answered from the database, with this result. -/
  | computed (res : LatestScores) (response : LatestScoreResponse)
  deriving DecidableEq, Repr

/-- Where a call stands. -/
inductive Phase where
  | entered
  /-- The scope has been checked; the cache is read next. -/
  | lookup
  /-- Not answered from the cache; the response holds what a failed parse left. -/
  | query (response : LatestScoreResponse)
  /-- The response is complete; it is stored next. -/
  | store (res : LatestScores) (response : LatestScoreResponse)
  | returned (outcome : Outcome)
  deriving DecidableEq, Repr

/-- A call of `QueryLatestScore`, with the scope of its request. -/
structure Call where
  scope : QueryScope
  phase : Phase := .entered
  deriving DecidableEq, Repr

/-- The calls in the order of their arrival, and Redis. -/
structure State where
  calls : List Call
  redis : String → Option Entry

/-- No calls, and an empty cache. -/
def init : State := ⟨[], fun _ => none⟩

/-- The steps. `answered` and `applied` say whether a command reached Redis: without a
cache, a connection or an answer the handler goes on as on a miss. -/
inductive Action where
  | arrive (scope : QueryScope)
  /-- `convertQueryScope`, then `isInitialized()` with this outcome. -/
  | check (c : ℕ) (initialized : Bool)
  | get (c : ℕ) (answered : Bool)
  /-- `queryLatestServerScores`, with what it returns. -/
  | query (c : ℕ) (res : LatestScores)
  | set (c : ℕ) (applied : Bool)
  /-- An entry has reached its TTL. -/
  | expire (key : String)
  /-- `HostManager` publishes a score. -/
  | publish (hostID : String) (text : String)
  deriving DecidableEq, Repr

/-- The phase after the checks at the top of the handler. -/
def checkScope (scope : QueryScope) (initialized : Bool) : Phase :=
  match convertQueryScope scope with
  | .error status => .returned (.failed status)
  | .ok _ =>
    if initialized then .lookup
    else .returned (.failed ⟨.unavailable, "Query manager not initialized"⟩)

/-- The phase after `redisCache_->get`. -/
def readCache (wire : Wire) (found : Option Entry) : Phase :=
  match found with
  | none => .query {}
  | some e =>
    match wire.parseFromString e.value with
    | (response, true) => .returned (.cached response e.origin)
    | (response, false) => .query response

/-- The phase after `queryLatestServerScores`. -/
def takeResult (response : LatestScoreResponse) (res : LatestScores) : Phase :=
  if res.error ≠ "" then .returned (.failed (queryErrorStatus res.error))
  else .store res (response.fill res)

namespace State

/-- Call `c` moves on to a phase. -/
def setPhase (s : State) (c : ℕ) (k : Call) (phase : Phase) : State :=
  { s with calls := s.calls.set c { k with phase } }

/-- Redis holds this under a key from now on. -/
def setKey (s : State) (key : String) (e : Option Entry) : State :=
  { s with redis := Function.update s.redis key e }

end State

/-- **One step.** -/
def step (wire : Wire) (s : State) : Action → Option State
  | .arrive scope => some { s with calls := s.calls ++ [{ scope }] }
  | .check c initialized =>
    match s.calls[c]? with
    | some ⟨scope, .entered⟩ =>
      some (s.setPhase c ⟨scope, .entered⟩ (checkScope scope initialized))
    | _ => none
  | .get c answered =>
    match s.calls[c]? with
    | some ⟨scope, .lookup⟩ =>
      some (s.setPhase c ⟨scope, .lookup⟩
        (readCache wire (if answered then s.redis (latestScoreCacheKey scope) else none)))
    | _ => none
  | .query c res =>
    match s.calls[c]? with
    | some ⟨scope, .query response⟩ =>
      some (s.setPhase c ⟨scope, .query response⟩ (takeResult response res))
    | _ => none
  | .set c applied =>
    match s.calls[c]? with
    | some ⟨scope, .store res response⟩ =>
      let t := s.setPhase c ⟨scope, .store res response⟩ (.returned (.computed res response))
      match wire.serializeToString response with
      | some value =>
        some (if applied then t.setKey (latestScoreCacheKey scope) (some ⟨value, .call c⟩) else t)
      | none => some t
    | _ => none
  | .expire key => some (s.setKey key none)
  | .publish hostID text =>
    some (s.setKey (HostManager.scoreKey hostID) (some ⟨text, .hostManager⟩))

/-- The moves of a call that leave the cache as it is. -/
inductive Moves (wire : Wire) (redis : String → Option Entry) (scope : QueryScope) :
    Phase → Phase → Prop
  | check (initialized : Bool) : Moves wire redis scope .entered (checkScope scope initialized)
  | miss : Moves wire redis scope .lookup (readCache wire none)
  | get : Moves wire redis scope .lookup (readCache wire (redis (latestScoreCacheKey scope)))
  | query (response : LatestScoreResponse) (res : LatestScores) :
    Moves wire redis scope (.query response) (takeResult response res)

/-- **What a step can do.** -/
theorem step_cases {wire : Wire} {s t : State} {a : Action} (h : step wire s a = some t) :
    (∃ scope, t = { s with calls := s.calls ++ [{ scope }] }) ∨
    (∃ c k phase, s.calls[c]? = some k ∧ Moves wire s.redis k.scope k.phase phase ∧
      t = s.setPhase c k phase) ∨
    (∃ c scope res response, s.calls[c]? = some ⟨scope, .store res response⟩ ∧
      ∃ u, u = s.setPhase c ⟨scope, .store res response⟩ (.returned (.computed res response)) ∧
        (t = u ∨ ∃ value, wire.serializeToString response = some value ∧
          t = u.setKey (latestScoreCacheKey scope) (some ⟨value, .call c⟩))) ∨
    (∃ key, t = s.setKey key none) ∨
    ∃ hostID text, t = s.setKey (HostManager.scoreKey hostID) (some ⟨text, .hostManager⟩) := by
  cases a with
  | arrive scope => exact .inl ⟨scope, (Option.some.inj h).symm⟩
  | check c initialized =>
    simp only [step] at h
    split at h
    · next scope hc => exact .inr (.inl ⟨c, _, _, hc, .check _, (Option.some.inj h).symm⟩)
    · cases h
  | get c answered =>
    simp only [step] at h
    split at h
    · next scope hc =>
      refine .inr (.inl ⟨c, _, _, hc, ?_, (Option.some.inj h).symm⟩)
      cases answered
      · exact .miss
      · exact .get
    · cases h
  | query c res =>
    simp only [step] at h
    split at h
    · next scope response hc =>
      exact .inr (.inl ⟨c, _, _, hc, .query _ _, (Option.some.inj h).symm⟩)
    · cases h
  | set c applied =>
    simp only [step] at h
    split at h
    · next scope res response hc =>
      refine .inr (.inr (.inl ⟨c, scope, res, response, hc, _, rfl, ?_⟩))
      split at h
      · next value hv =>
        cases applied
        · exact .inl (Option.some.inj h).symm
        · exact .inr ⟨value, hv, (Option.some.inj h).symm⟩
      · exact .inl (Option.some.inj h).symm
    · cases h
  | expire key => exact .inr (.inr (.inr (.inl ⟨key, (Option.some.inj h).symm⟩)))
  | publish hostID text => exact .inr (.inr (.inr (.inr ⟨hostID, text, (Option.some.inj h).symm⟩)))

/-! ### Where a cached response comes from -/

/-- Call `c` was made for this scope and was answered from the database with this
response. -/
def State.Computed (s : State) (c : ℕ) (scope : QueryScope) (response : LatestScoreResponse) :
    Prop :=
  ∃ res, s.calls[c]? = some ⟨scope, .returned (.computed res response)⟩

/-- What is known of a call in each phase. -/
def Call.Traced (s : State) (k : Call) : Prop :=
  match k.phase with
  | .entered | .returned (.failed _) => True
  | .lookup => k.scope.Admitted
  | .query response => k.scope.Admitted ∧ response = {}
  | .store res response | .returned (.computed res response) =>
    k.scope.Admitted ∧ response = LatestScoreResponse.fill {} res
  | .returned (.cached response origin) =>
    ∃ c scope, origin = .call c ∧ s.Computed c scope response ∧ k.scope.Admitted ∧
      latestScoreCacheKey scope = latestScoreCacheKey k.scope

/-- What is known of an entry: it is a published score, or the response of a call with
this key. -/
def Entry.Traced (wire : Wire) (s : State) (key : String) (e : Entry) : Prop :=
  (∃ hostID, key = HostManager.scoreKey hostID) ∨
  ∃ c scope response, e.origin = .call c ∧ s.Computed c scope response ∧
    key = latestScoreCacheKey scope ∧ wire.serializeToString response = some e.value

/-- **The invariant**: every call and every entry is accounted for. -/
structure Traced (wire : Wire) (s : State) : Prop where
  calls : ∀ (c : ℕ) (k : Call), s.calls[c]? = some k → k.Traced s
  entries : ∀ key e, s.redis key = some e → e.Traced wire s key

theorem Call.Traced.mono {s t : State} {k : Call}
    (h : ∀ c scope response, s.Computed c scope response → t.Computed c scope response)
    (hk : k.Traced s) : k.Traced t := by
  obtain ⟨scope, phase⟩ := k
  unfold Call.Traced at hk ⊢
  split at hk <;> try exact hk
  obtain ⟨c, scope', ho, hc, hrest⟩ := hk
  exact ⟨c, scope', ho, h _ _ _ hc, hrest⟩

theorem Entry.Traced.mono {wire : Wire} {s t : State} {key : String} {e : Entry}
    (h : ∀ c scope response, s.Computed c scope response → t.Computed c scope response)
    (he : e.Traced wire s key) : e.Traced wire t key := by
  rcases he with he | ⟨c, scope, response, ho, hc, hrest⟩
  · exact .inl he
  · exact .inr ⟨c, scope, response, ho, h _ _ _ hc, hrest⟩

theorem Traced.init (wire : Wire) : Traced wire init :=
  ⟨fun c k h => by simp [LatestScore.init] at h, fun key e h => by cases h⟩

/-- A key of a query is not the key of a published score. -/
theorem scoreKey_ne_latestScoreCacheKey (hostID : String) (scope : QueryScope) :
    HostManager.scoreKey hostID ≠ latestScoreCacheKey scope := by
  intro h
  unfold HostManager.scoreKey latestScoreCacheKey at h
  have hl := congrArg String.toList h
  simp [String.toList_append] at hl

/-- A move that leaves an answered call alone keeps what has been computed. -/
theorem computed_setPhase {s : State} {c : ℕ} {k : Call} (phase : Phase)
    (hc : s.calls[c]? = some k) (hk : ∀ res response, k.phase ≠ .returned (.computed res response))
    (c' : ℕ) (scope : QueryScope) (response : LatestScoreResponse)
    (h : s.Computed c' scope response) : (s.setPhase c k phase).Computed c' scope response := by
  obtain ⟨res, h⟩ := h
  refine ⟨res, ?_⟩
  have hne : c ≠ c' := by
    rintro rfl
    obtain rfl : k = _ := Option.some.inj (hc.symm.trans h)
    exact hk res response rfl
  rw [State.setPhase, List.getElem?_set_ne hne, h]

/-- The moves keep what is known of a call. -/
theorem Moves.traced {wire : Wire} {s : State} {k : Call} {phase : Phase}
    (hs : Traced wire s) (hk : k.Traced s) (h : Moves wire s.redis k.scope k.phase phase) :
    Call.Traced s { k with phase } := by
  obtain ⟨scope, old⟩ := k
  cases h with
  | check initialized =>
    unfold checkScope
    split
    · exact trivial
    · next hok =>
      obtain ⟨rfl, hadm⟩ := convertQueryScope_ok hok
      cases initialized
      · exact trivial
      · exact hadm
  | miss => exact ⟨hk, rfl⟩
  | get =>
    unfold readCache
    cases he : s.redis (latestScoreCacheKey scope) with
    | none => exact ⟨hk, rfl⟩
    | some e =>
      rcases hs.entries _ _ he with ⟨hostID, hkey⟩ | ⟨c, scope', response, ho, hc, hkey, hser⟩
      · exact absurd hkey.symm (scoreKey_ne_latestScoreCacheKey hostID scope)
      · -- the entry was serialised from that response, so it is read back as it was
        simp only [wire.parse_serialize _ _ hser]
        exact ⟨c, scope', ho, hc, hk, hkey.symm⟩
  | query response res =>
    obtain ⟨hadm, rfl⟩ := hk
    unfold takeResult
    split
    · exact trivial
    · exact ⟨hadm, rfl⟩

theorem Moves.not_computed {wire : Wire} {redis : String → Option Entry} {scope : QueryScope}
    {old phase : Phase} (h : Moves wire redis scope old phase) (res : LatestScores)
    (response : LatestScoreResponse) : old ≠ .returned (.computed res response) := by
  cases h <;> simp

/-- What is known survives when one call moves on to a phase of which as much is known. -/
theorem Traced.setPhase {wire : Wire} {s : State} {c : ℕ} {k : Call} {phase : Phase}
    (hs : Traced wire s) (hc : s.calls[c]? = some k)
    (hk : ∀ res response, k.phase ≠ .returned (.computed res response))
    (hphase : Call.Traced s { k with phase }) : Traced wire (s.setPhase c k phase) := by
  have hmono := computed_setPhase phase hc hk
  refine ⟨fun c' k' h => ?_, fun key e he => (hs.entries key e he).mono hmono⟩
  refine Call.Traced.mono hmono ?_
  rw [State.setPhase, List.getElem?_set] at h
  split at h
  · split at h
    · cases h
      exact hphase
    · cases h
  · exact hs.calls c' k' h

theorem Traced.setKey {wire : Wire} {s : State} {key : String} {e : Option Entry}
    (hs : Traced wire s) (he : ∀ x, e = some x → x.Traced wire s key) :
    Traced wire (s.setKey key e) := by
  refine ⟨hs.calls, fun key' x hx => ?_⟩
  by_cases hkey : key' = key
  · subst hkey
    exact he x (by simpa [State.setKey] using hx)
  · exact hs.entries key' x (by simpa [State.setKey, Function.update_of_ne hkey] using hx)

theorem Traced.step {wire : Wire} {s t : State} {a : Action} (hs : Traced wire s)
    (h : step wire s a = some t) : Traced wire t := by
  obtain ⟨scope, rfl⟩ | ⟨c, k, phase, hc, hm, rfl⟩ | ⟨c, scope, res, response, hc, u, rfl, ht⟩ |
    ⟨key, rfl⟩ | ⟨hostID, text, rfl⟩ := step_cases h
  · -- a new call is appended; the calls before it keep their numbers
    have hmono : ∀ c scope' response, s.Computed c scope' response →
        State.Computed { s with calls := s.calls ++ [{ scope }] } c scope' response := by
      rintro c scope' response ⟨res, hc⟩
      exact ⟨res, by rw [List.getElem?_append_left (List.getElem?_eq_some_iff.mp hc).1, hc]⟩
    refine ⟨fun c k hk => ?_, fun key e he => (hs.entries key e he).mono hmono⟩
    rw [List.getElem?_append] at hk
    split at hk
    · exact (hs.calls c k hk).mono hmono
    · obtain rfl : k = { scope } := by
        simpa [eq_comm] using List.mem_of_getElem? hk
      exact trivial
  · exact hs.setPhase hc hm.not_computed (hm.traced hs (hs.calls c k hc))
  · -- the response of the call is its own; so is the entry, if one is written
    have hu : Traced wire (s.setPhase c ⟨scope, .store res response⟩
        (.returned (.computed res response))) :=
      hs.setPhase hc (by simp) (hs.calls c ⟨scope, .store res response⟩ hc)
    rcases ht with rfl | ⟨value, hser, rfl⟩
    · exact hu
    · refine hu.setKey fun x hx => ?_
      obtain rfl : _ = x := Option.some.inj hx
      refine .inr ⟨c, scope, response, rfl, ⟨res, ?_⟩, rfl, hser⟩
      rw [State.setPhase, List.getElem?_set_self (List.getElem?_eq_some_iff.mp hc).1]
  · exact hs.setKey (by simp)
  · refine hs.setKey fun x hx => ?_
    exact .inl ⟨hostID, rfl⟩

/-- **A response served from the cache was computed under the same key**, in every run. -/
theorem Traced.run {wire : Wire} {acts : List Action} {s : State}
    (h : Runs.run (LatestScore.step wire) LatestScore.init acts = some s) : Traced wire s :=
  Runs.run_invariant (fun _ _ _ hs hstep => hs.step hstep) (.init wire) h

/-! ### Which scopes are isolated -/

/-- The key of this scope is the key of no other admitted scope. -/
def Unambiguous (scope : QueryScope) : Prop :=
  Delimited.Unambiguous ':' scope.tenantId.toList scope.teamId.toList scope.clusterId.toList

instance (scope : QueryScope) : Decidable (Unambiguous scope) :=
  inferInstanceAs (Decidable (Delimited.Unambiguous ':' _ _ _))

theorem latestScoreCacheKey_eq_iff {scope scope' : QueryScope} :
    latestScoreCacheKey scope' = latestScoreCacheKey scope ↔
      Delimited.join ':' scope'.tenantId.toList scope'.teamId.toList scope'.clusterId.toList =
        Delimited.join ':' scope.tenantId.toList scope.teamId.toList scope.clusterId.toList := by
  unfold latestScoreCacheKey
  rw [← String.toList_inj]
  simp [Delimited.join, String.toList_append]

/-- **Which keys are unique.** -/
theorem key_unique_iff {scope : QueryScope} (h : scope.Admitted) :
    (∀ scope' : QueryScope, scope'.Admitted →
      latestScoreCacheKey scope' = latestScoreCacheKey scope → scope' = scope) ↔
      Unambiguous scope := by
  rw [Unambiguous, ← Delimited.join_unique_iff (by simpa using h.1) (by simpa using h.2)]
  constructor
  · intro hu a b c ha hb heq
    have hs := hu ⟨.ofList a, .ofList b, .ofList c⟩ ⟨by simpa using ha, by simpa using hb⟩
      (latestScoreCacheKey_eq_iff.mpr (by simpa using heq))
    simp [← hs]
  · intro hu scope' h' hkey
    obtain ⟨ht, hm, hc⟩ := hu _ _ _ (by simpa using h'.1) (by simpa using h'.2)
      (latestScoreCacheKey_eq_iff.mp hkey)
    cases scope
    cases scope'
    simp_all [String.toList_inj]

/-- **The responses served from the cache to this scope were computed for it**: each is
the response of a call with the same scope, made of what the query manager returned to
that call and of nothing else. -/
def State.ServesOwn (s : State) (scope : QueryScope) : Prop :=
  ∀ (c : ℕ) (response : LatestScoreResponse) (origin : Origin),
    s.calls[c]? = some ⟨scope, .returned (.cached response origin)⟩ →
    ∃ (c' : ℕ) (res : LatestScores), origin = .call c' ∧
      s.calls[c']? = some ⟨scope, .returned (.computed res response)⟩ ∧
      response = LatestScoreResponse.fill {} res

theorem Traced.servesOwn {wire : Wire} {s : State} {scope : QueryScope} (hs : Traced wire s)
    (h : Unambiguous scope) : s.ServesOwn scope := by
  intro c response origin hc
  obtain ⟨c', scope', ho, ⟨res, hc'⟩, hadm, hkey⟩ := hs.calls c _ hc
  obtain ⟨hadm', hfill⟩ := hs.calls c' _ hc'
  obtain rfl : scope' = scope := (key_unique_iff hadm).mpr h scope' hadm' hkey
  exact ⟨c', res, ho, hc', hfill⟩

/-- Two calls one after the other; the second one finds what the first one has stored if
their keys are the same. -/
def storeAndServe (scope' scope : QueryScope) (res : LatestScores) : List Action :=
  [.arrive scope', .check 0 true, .get 0 true, .query 0 res, .set 0 true,
    .arrive scope, .check 1 true, .get 1 true]

theorem run_storeAndServe (wire : Wire) (scope' scope : QueryScope) (res : LatestScores)
    {value : String} (h' : scope'.Admitted) (h : scope.Admitted) (herr : res.error = "")
    (hkey : latestScoreCacheKey scope' = latestScoreCacheKey scope)
    (hser : wire.serializeToString (LatestScoreResponse.fill {} res) = some value) :
    ∃ s, Runs.run (step wire) init (storeAndServe scope' scope res) = some s ∧
      s.calls =
        [⟨scope', .returned (.computed res (LatestScoreResponse.fill {} res))⟩,
          ⟨scope, .returned (.cached (LatestScoreResponse.fill {} res) (.call 0))⟩] := by
  simp [storeAndServe, Runs.run, step, init, State.setPhase, State.setKey, checkScope, readCache,
    takeResult, convertQueryScope_of_admitted h', convertQueryScope_of_admitted h, herr, hser,
    hkey, wire.parse_serialize _ _ hser]

/-- **A scope whose key another scope has is served that scope's response.** -/
theorem not_servesOwn_of_calls {s : State} {scope' scope : QueryScope} {res : LatestScores}
    {response : LatestScoreResponse} (hne : scope' ≠ scope)
    (hcalls : s.calls = [⟨scope', .returned (.computed res response)⟩,
      ⟨scope, .returned (.cached response (.call 0))⟩]) : ¬ s.ServesOwn scope := by
  intro hown
  obtain ⟨c', res', ho, hc', -⟩ := hown 1 response (.call 0) (by simp [hcalls])
  obtain rfl : 0 = c' := Origin.call.inj ho
  rw [hcalls] at hc'
  exact hne (by simpa using congrArg (Option.map Call.scope) hc')

/-- **Which scopes the cache isolates.** With an encoder that can write some response, and
for every admitted scope: the responses served from the cache to that scope were computed
for it, in every run of calls of any scopes and at every moment, if and only if its
identifiers hold no `:` – but possibly as the first letter of the tenant, or as the whole
team. Those are the scopes whose key no other admitted scope has. -/
theorem cached_isolated_iff (wire : Wire)
    (hwire : ∃ res : LatestScores, res.error = "" ∧
      (wire.serializeToString (LatestScoreResponse.fill {} res)).isSome)
    (scope : QueryScope) (hscope : scope.Admitted) :
    ((∀ acts s, Runs.run (step wire) init acts = some s → s.ServesOwn scope) ↔
      Unambiguous scope) ∧
    ((∀ scope' : QueryScope, scope'.Admitted →
      latestScoreCacheKey scope' = latestScoreCacheKey scope → scope' = scope) ↔
      Unambiguous scope) := by
  refine ⟨⟨fun h => ?_, fun h acts s hr => (Traced.run hr).servesOwn h⟩, key_unique_iff hscope⟩
  rw [← key_unique_iff hscope]
  -- another scope with this key stores its response, and this scope is served it
  intro scope' hscope' hkey
  by_contra hne
  obtain ⟨res, herr, hser⟩ := hwire
  obtain ⟨value, hser⟩ := Option.isSome_iff_exists.mp hser
  obtain ⟨s, hr, hcalls⟩ := run_storeAndServe wire scope' scope res hscope' hscope herr hkey hser
  exact not_servesOwn_of_calls hne hcalls (h _ s hr)

/-- The answer for a scope without servers. -/
def noServers : LatestScores := ⟨[], {}, ""⟩

/-- The encoding of that answer: an empty submessage in field 2. -/
def noServersWire : Wire where
  serializeToString r :=
    if r = LatestScoreResponse.fill {} noServers then some "\x12\x00" else none
  parseFromString b :=
    if b = "\x12\x00" then (LatestScoreResponse.fill {} noServers, true) else ({}, false)
  parse_serialize r b h := by
    split at h
    · next hr =>
      obtain rfl : "\x12\x00" = b := Option.some.inj h
      rw [if_pos rfl, hr]
    · cases h

theorem cached_isolated_iff_plainScope :
    (QueryScope.mk "acme" "ops" "").Admitted ∧
      ∀ acts s, Runs.run (step noServersWire) init acts = some s →
        s.ServesOwn ⟨"acme", "ops", ""⟩ :=
  ⟨by decide, (cached_isolated_iff noServersWire
    ⟨noServers, rfl, by simp [noServersWire]⟩ ⟨"acme", "ops", ""⟩ (by decide)).1.mpr (by decide)⟩

/-- **Two teams share an entry.** Team `c` of tenant `a:b` and team `b:c` of tenant `a`
have one key; after a query of the first, the second is served its response. -/
theorem colliding_scopes_share_entry :
    (QueryScope.mk "a:b" "c" "").Admitted ∧ (QueryScope.mk "a" "b:c" "").Admitted ∧
    latestScoreCacheKey ⟨"a:b", "c", ""⟩ = latestScoreCacheKey ⟨"a", "b:c", ""⟩ ∧
    ∃ s, Runs.run (step noServersWire) init
        (storeAndServe ⟨"a:b", "c", ""⟩ ⟨"a", "b:c", ""⟩ noServers) = some s ∧
      ¬ s.ServesOwn ⟨"a", "b:c", ""⟩ := by
  have hkey : latestScoreCacheKey ⟨"a:b", "c", ""⟩ = latestScoreCacheKey ⟨"a", "b:c", ""⟩ := by
    decide
  refine ⟨by decide, by decide, hkey, ?_⟩
  have hser : noServersWire.serializeToString (LatestScoreResponse.fill {} noServers) =
      some "\x12\x00" := by simp [noServersWire]
  obtain ⟨s, hr, hcalls⟩ := run_storeAndServe noServersWire ⟨"a:b", "c", ""⟩ ⟨"a", "b:c", ""⟩
    noServers (by decide) (by decide) rfl hkey hser
  exact ⟨s, hr, not_servesOwn_of_calls (by decide) hcalls⟩

end LatestScore

end MonitorSystem
