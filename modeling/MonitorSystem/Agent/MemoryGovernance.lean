import MonitorSystem.Agent.Deletion
import MonitorSystem.Agent.ScopeKeys
import MonitorSystem.Gateway.AuthService

/-!
# The governance of memories

The handlers of `agent_service/internal/handler/agent/chat_v1_memory.go`: listing, deleting
and clearing memories, and setting a policy. Each of them compares the scope of the request
with the claims of the token (`requireMemoryScopeAllowed`).

The comparison is enough where a request is about the memories of a team. A policy is set
for a level, and a level may reach further than the scope that was compared: the global
level needs no scope at all, the level of a tenant is that of all its teams, and the key of
a team or a cluster may be the key of another one (`request_contained_iff`).
-/

namespace MonitorSystem

open InMemoryStore

/-! ### Requests -/

/-- The text of a status. -/
def LongTermStatus.ofText (s : String) : LongTermStatus :=
  if s = "" then .unset
  else if s = "active" then .active
  else if s = "pending" then .pending
  else if s = "deleting" then .deleting
  else if s = "deleted" then .deleted
  else .other s

/-- The query parameters of a request. -/
structure MemoryQuery where
  id : String := ""
  tenantId : String := ""
  teamId : String := ""
  clusterId : String := ""
  sessionId : String := ""
  type : String := ""
  status : String := ""
  includeDeleted : String := ""
  query : String := ""
  deriving DecidableEq, Repr

/-- `MemoryPolicyReq`. -/
structure MemoryPolicyReq where
  tenantId : String := ""
  teamId : String := ""
  clusterId : String := ""
  level : String := ""
  longTermEnabled : Option Bool := none
  writeEnabled : Option Bool := none
  recallEnabled : Option Bool := none
  recentWindow : ℤ := 0
  summaryWindow : ℤ := 0
  recallLimit : ℤ := 0
  tokenBudget : ℤ := 0
  deriving DecidableEq, Repr

/-- A request, with the body of a policy or the error that its parsing has given. -/
inductive MemoryRequest where
  | listMemories (q : MemoryQuery)
  | deleteMemory (id : String) (q : MemoryQuery)
  | clearMemories (q : MemoryQuery)
  | setMemoryPolicy (body : Except String MemoryPolicyReq)

/-- The data of a response. -/
inductive MemoryReply where
  | memories (items : List LongTermMemory)
  | deleted (id : String)
  | cleared (scope : MemoryScope)
  | policySet (level : ScopeLevel) (scope : MemoryScope)
  deriving DecidableEq, Repr

/-- `memorySelectorFromQuery`. -/
def memorySelectorFromQuery (q : MemoryQuery) : MemorySelector where
  id := trimSpace q.id
  scope :=
    MemoryScope.normalized
      { tenantId := q.tenantId, teamId := q.teamId, clusterId := q.clusterId
        sessionId := q.sessionId }
  type := trimSpace q.type
  status := .ofText (trimSpace q.status)
  includeDeleted := equalFold q.includeDeleted "true"
  query := trimSpace q.query

/-- `memoryScopeFromPolicyReq`. -/
def memoryScopeFromPolicyReq (req : MemoryPolicyReq) : MemoryScope :=
  MemoryScope.normalized
    { tenantId := req.tenantId, teamId := req.teamId, clusterId := req.clusterId }

/-- `scopeLevelFromString`. -/
def scopeLevelFromString (toLower : Char → Char) (value : String) (scope : MemoryScope) :
    ScopeLevel :=
  let value := lowerText toLower (trimSpace value)
  if value = "global" then .global
  else if value = "tenant" then .tenant
  else if value = "team" then .team
  else if value = "cluster" then .cluster
  else scope.mostSpecificPolicyLevel

/-! ### The handlers -/

/-- `requireMemoryScopeAllowed`. -/
def requireMemoryScopeAllowed (claims : Option TokenClaims) (scope : MemoryScope) :
    Except String Unit :=
  match claims with
  | none => .ok ()
  | some claims =>
    if equalFold claims.role.text "admin" then .ok ()
    else if claims.tenantId ≠ "" ∧ claims.tenantId ≠ scope.tenantId then
      .error ("无权访问租户 " ++ scope.tenantId ++ " 的记忆")
    else if claims.teamId ≠ "" ∧ claims.teamId ≠ scope.teamId then
      .error ("无权访问团队 " ++ scope.teamId ++ " 的记忆")
    else .ok ()

/-- The checks that the listing, the deletion and the clearing begin with. -/
def checkedSelector (claims : Option TokenClaims) (q : MemoryQuery) :
    Except String MemorySelector := do
  validateMemoryScope (memorySelectorFromQuery q).scope
  requireMemoryScopeAllowed claims (memorySelectorFromQuery q).scope
  .ok (memorySelectorFromQuery q)

/-- The checks of `SetMemoryPolicy`: the level and the scope that it goes on with. -/
def checkedPolicyScope (toLower : Char → Char) (claims : Option TokenClaims)
    (req : MemoryPolicyReq) : Except String (ScopeLevel × MemoryScope) :=
  let scope := memoryScopeFromPolicyReq req
  let level := scopeLevelFromString toLower req.level scope
  if trimSpace req.level = "" ∧ level = .global then .error "租户 ID 不能为空"
  else do
    validatePolicyScope level scope
    if level ≠ .global then requireMemoryScopeAllowed claims scope
    else if trimSpace scope.tenantId ≠ "" ∨ trimSpace scope.teamId ≠ "" then
      requireMemoryScopeAllowed claims scope
    else .ok ()
    .ok (level, scope)

/-- The policy of a request. -/
def MemoryPolicyReq.policy (req : MemoryPolicyReq) : MemoryPolicy where
  longTermEnabled := req.longTermEnabled
  writeEnabled := req.writeEnabled
  recallEnabled := req.recallEnabled
  recentWindow := req.recentWindow
  summaryWindow := req.summaryWindow
  recallLimit := req.recallLimit
  tokenBudget := req.tokenBudget

/-- **The handlers**: the store that a request leaves, and the response. -/
def handleMemory (toLower : Char → Char) (store : InMemoryStore) (claims : Option TokenClaims)
    (env : Env) : MemoryRequest → InMemoryStore × Except String MemoryReply
  | .listMemories q =>
    (store, do
      let selector ← checkedSelector claims q
      let items ← listMemories store selector env
      .ok (.memories items))
  | .deleteMemory id q =>
    match checkedSelector claims q with
    | .error e => (store, .error e)
    | .ok selector =>
      if trimSpace id = "" then (store, .error "记忆 ID 不能为空")
      else
        let (store, result) := deleteMemories store { selector with id := trimSpace id } env
        (store, result.map fun _ => .deleted (trimSpace id))
  | .clearMemories q =>
    match checkedSelector claims q with
    | .error e => (store, .error e)
    | .ok selector =>
      let (store, result) := deleteMemories store selector env
      (store, result.map fun _ => .cleared selector.scope)
  | .setMemoryPolicy (.error e) => (store, .error ("解析请求失败: " ++ e))
  | .setMemoryPolicy (.ok req) =>
    match checkedPolicyScope toLower claims req with
    | .error e => (store, .error e)
    | .ok (level, scope) =>
      let (store, result) := setMemoryPolicy store level scope req.policy
      (store, result.map fun _ => .policySet level scope)

/-! ### What the checks let through -/

section Checks

variable {claims : TokenClaims} {scope : MemoryScope}

/-- **A caller who is no administrator is let through for the own team only.** -/
theorem requireMemoryScopeAllowed_ok_iff (hrole : equalFold claims.role.text "admin" = false)
    (ht : claims.tenantId ≠ "") (hm : claims.teamId ≠ "") :
    requireMemoryScopeAllowed (some claims) scope = .ok () ↔
      scope.tenantId = claims.tenantId ∧ scope.teamId = claims.teamId := by
  simp only [requireMemoryScopeAllowed, hrole, Bool.false_eq_true, if_false]
  split
  · next h => exact ⟨fun hcon => (nomatch hcon), fun hcon => absurd hcon.1.symm h.2⟩
  · next h =>
    split
    · next h' => exact ⟨fun hcon => (nomatch hcon), fun hcon => absurd hcon.2.symm h'.2⟩
    · next h' =>
      refine ⟨fun _ => ?_, fun _ => rfl⟩
      exact ⟨(not_not.mp (not_and.mp h ht)).symm, (not_not.mp (not_and.mp h' hm)).symm⟩

theorem checkedSelector_ok (hrole : equalFold claims.role.text "admin" = false)
    (ht : claims.tenantId ≠ "") (hm : claims.teamId ≠ "") {q : MemoryQuery}
    {selector : MemorySelector} (h : checkedSelector (some claims) q = .ok selector) :
    selector.scope.normalized.tenantId = claims.tenantId ∧
      selector.scope.normalized.teamId = claims.teamId := by
  unfold checkedSelector at h
  cases hscope : validateMemoryScope (memorySelectorFromQuery q).scope with
  | error e =>
    rw [hscope] at h
    cases h
  | ok u =>
    rw [hscope] at h
    cases hallowed : requireMemoryScopeAllowed (some claims) (memorySelectorFromQuery q).scope with
    | error e =>
      rw [hallowed] at h
      cases h
    | ok u =>
      rw [hallowed] at h
      obtain rfl := Except.ok.inj h
      have hteam := (requireMemoryScopeAllowed_ok_iff hrole ht hm).mp hallowed
      rw [memorySelectorFromQuery] at hteam ⊢
      rwa [MemoryScope.normalized_normalized]

/-- The level of a request is one of the four. -/
theorem scopeLevelFromString_keyed (toLower : Char → Char) (value : String) (scope : MemoryScope) :
    (scopeLevelFromString toLower value scope).keyed =
      scopeLevelFromString toLower value scope := by
  have hmost : scope.mostSpecificPolicyLevel.keyed = scope.mostSpecificPolicyLevel := by
    unfold MemoryScope.mostSpecificPolicyLevel
    split_ifs <;> rfl
  unfold scopeLevelFromString
  dsimp only
  split_ifs
  · rfl
  · rfl
  · rfl
  · rfl
  · exact hmost

/-- **What the checks of a policy have found out**: the level is one of the four and has its
identifiers, and below the global level the scope is that of the token. -/
theorem checkedPolicyScope_ok (hrole : equalFold claims.role.text "admin" = false)
    (ht : claims.tenantId ≠ "") (hm : claims.teamId ≠ "") {toLower : Char → Char}
    {req : MemoryPolicyReq} {level : ScopeLevel}
    (h : checkedPolicyScope toLower (some claims) req = .ok (level, scope)) :
    validatePolicyScope level scope = .ok () ∧ level.keyed = level ∧
      (level ≠ .global → scope.normalized.tenantId = claims.tenantId ∧
        scope.normalized.teamId = claims.teamId) := by
  unfold checkedPolicyScope at h
  have hscope : (memoryScopeFromPolicyReq req).normalized = memoryScopeFromPolicyReq req :=
    MemoryScope.normalized_normalized _
  have hkeyed := scopeLevelFromString_keyed toLower req.level (memoryScopeFromPolicyReq req)
  simp only at h
  split at h
  · cases h
  · cases hvalid : validatePolicyScope (scopeLevelFromString toLower req.level
        (memoryScopeFromPolicyReq req)) (memoryScopeFromPolicyReq req) with
    | error e =>
      rw [hvalid] at h
      cases h
    | ok u =>
      rw [hvalid] at h
      simp only [bind, Except.bind] at h
      split at h
      · split at h
        · cases h
        · next hallowed =>
          obtain ⟨rfl, rfl⟩ := Prod.mk.inj (Except.ok.inj h)
          rw [hscope]
          exact ⟨hvalid, hkeyed, fun _ =>
            (requireMemoryScopeAllowed_ok_iff hrole ht hm).mp hallowed⟩
      · next hglobal =>
        -- a global policy is set in any case, if it is set at all
        have hok : (scopeLevelFromString toLower req.level (memoryScopeFromPolicyReq req),
            memoryScopeFromPolicyReq req) = (level, scope) := by
          split at h
          · split at h
            · cases h
            · exact Except.ok.inj h
          · exact Except.ok.inj h
        obtain ⟨rfl, rfl⟩ := Prod.mk.inj hok
        exact ⟨hvalid, hkeyed, fun hne => absurd hne hglobal⟩

end Checks

/-! ### The memories of a team -/

/-- The scope is one of the team. -/
def MemoryScope.OfTeam (scope : MemoryScope) (tenantId teamId : String) : Prop :=
  scope.normalized.tenantId = tenantId ∧ scope.normalized.teamId = teamId

/-- **Only memories of the team have changed**, and they are still memories of the team. -/
structure TeamChange (tenantId teamId : String) (store store' : InMemoryStore) : Prop where
  outside : ∀ m, ¬ m.OfTeam tenantId teamId → (m ∈ store'.longTerm ↔ m ∈ store.longTerm)
  owned : ∀ id, (∀ m ∈ store.longTerm, m.id = id → m.OfTeam tenantId teamId) →
    ∀ m ∈ store'.longTerm, m.id = id → m.OfTeam tenantId teamId
  policies : store'.policies = store.policies

section Team

variable {tenantId teamId : String} {store s s' : InMemoryStore}

theorem teamChange_refl (store : InMemoryStore) : TeamChange tenantId teamId store store :=
  ⟨fun _ _ => Iff.rfl, fun _ h => h, rfl⟩

/-- A listing for a team selects memories of the team. -/
theorem ofTeam_of_selected {selector : MemorySelector} {now : ℤ} (ht : tenantId ≠ "")
    (hm : teamId ≠ "") (hscope : selector.scope.OfTeam tenantId teamId) {item : LongTermMemory}
    (h : item ∈ store.selected selector now) : item.OfTeam tenantId teamId := by
  obtain ⟨rfl, rfl⟩ := hscope
  simp only [selected, List.mem_filter, matchMemory, decide_eq_true_eq] at h
  obtain ⟨-, -, htenant, hteam, -⟩ := h
  exact ⟨htenant.resolve_left ht, hteam.resolve_left hm⟩

/-- Marking a memory of the team changes the memories of the team only. -/
theorem TeamChange.mark (h : TeamChange tenantId teamId store s) {item : LongTermMemory}
    (hitem : item ∈ store.longTerm) (hteam : item.OfTeam tenantId teamId)
    {status : LongTermStatus} {now : ℤ}
    (hmark : s.markLongTermStatus item.id status now = .ok s') :
    TeamChange tenantId teamId store s' := by
  have howned := h.owned item.id fun m hm hid => eq_of_id_eq hm hitem hid ▸ hteam
  unfold markLongTermStatus at hmark
  split at hmark
  · cases hmark
  · next found hfind =>
    obtain rfl := Except.ok.inj hmark
    have hid : found.id = item.id := by simpa using List.find?_some hfind
    have hfound := howned found (List.mem_of_find?_eq_some hfind) hid
    refine ⟨fun m hout => ?_, fun id hid' m hm hmid => ?_, h.policies⟩
    · rw [← h.outside m hout, mem_put]
      constructor
      · rintro (rfl | ⟨hm, -⟩)
        · exact absurd hfound hout
        · exact hm
      · intro hm
        exact .inr ⟨hm, fun heq => hout (howned m hm (heq.trans hid))⟩
    · rcases mem_put.mp hm with rfl | ⟨hm, -⟩
      · exact hfound
      · exact h.owned id hid' m hm hmid

theorem TeamChange.record (h : TeamChange tenantId teamId store s) (env : Env) (k : ℕ)
    (event : MemoryEvent) : TeamChange tenantId teamId store (recordEvent env k s event) := by
  have hpolicies : (recordEvent env k s event).policies = s.policies := by
    unfold recordEvent
    split <;> rfl
  refine ⟨?_, ?_, hpolicies.trans h.policies⟩
  · rw [recordEvent_longTerm]
    exact h.outside
  · rw [recordEvent_longTerm]
    exact h.owned

/-- **A deletion for a team changes the memories of the team only.** -/
theorem teamChange_deleteMemories (selector : MemorySelector) (ht : tenantId ≠ "")
    (hm : teamId ≠ "") (hscope : selector.scope.OfTeam tenantId teamId) (env : Env) :
    TeamChange tenantId teamId store (deleteMemories store selector env).1 := by
  refine deleteMemories_induct (fun item hitem status _ s now s' h hmark => ?_)
    (fun s k event h => h.record env k event) (teamChange_refl store)
  exact h.mark (List.mem_of_mem_filter hitem) (ofTeam_of_selected ht hm hscope hitem) hmark

end Team

/-! ### The reach of a policy -/

section Reach

variable {cfg : MemoryConfig} {store : InMemoryStore} {level : ScopeLevel} {scope o : MemoryScope}
  {policy : MemoryPolicy}

theorem getPolicy_setPolicy (level' : ScopeLevel) :
    (store.setPolicy level scope policy).getPolicy level' o =
      if o.policyKey level' = scope.policyKey level then some policy
      else store.getPolicy level' o := by
  unfold getPolicy setPolicy
  exact Function.update_apply _ _ _ _

/-- A policy does not reach a scope that asks for none under its key. -/
theorem resolvePolicy_setPolicy_of_ne
    (h : ∀ level' ∈ policyLevels o.normalized, o.policyKey level' ≠ scope.policyKey level) :
    resolvePolicy (store.setPolicy level scope policy).getPolicy cfg o =
      resolvePolicy store.getPolicy cfg o := by
  refine resolvePolicy_congr fun level' hlevel => ?_
  rw [getPolicy_setPolicy, MemoryScope.policyKey_normalized, if_neg (h level' hlevel)]

/-- The levels are asked for one time each. -/
theorem nodup_policyLevels (scope : MemoryScope) : (policyLevels scope).Nodup := by
  unfold policyLevels
  split_ifs <;> decide

/-- Levels of which one has a policy. -/
theorem foldl_applyLevel_single (level : ScopeLevel)
    {get : ScopeLevel → MemoryScope → Option MemoryPolicy} {levels : List ScopeLevel}
    (hlevels : levels.Nodup)
    (hget : ∀ l ∈ levels, get l scope = if l = level then some policy else none)
    (effective : EffectivePolicy) :
    levels.foldl (applyLevel get scope) effective =
      if level ∈ levels then applyPolicy effective policy else effective := by
  induction levels generalizing effective with
  | nil => rfl
  | cons l levels ih =>
    obtain ⟨hl, hrest⟩ := List.forall_mem_cons.mp hget
    obtain ⟨hnotMem, hnodup⟩ := List.nodup_cons.mp hlevels
    rw [List.foldl_cons, ih hnodup hrest, applyLevel, hl]
    by_cases heq : l = level
    · subst heq
      simp [hnotMem]
    · simp [heq, Ne.symm heq]

/-- The policy of a store with one policy, for a scope that asks for it. -/
theorem resolvePolicy_new_setPolicy {level' : ScopeLevel}
    (hlevel : level' ∈ policyLevels o.normalized)
    (hkey : o.policyKey level' = scope.policyKey level) :
    resolvePolicy (new.setPolicy level scope policy).getPolicy cfg o =
      applyPolicy cfg.effective policy := by
  unfold resolvePolicy
  rw [foldl_applyLevel_single level' (nodup_policyLevels _) ?_, if_pos hlevel]
  intro l hl
  rw [getPolicy_setPolicy, MemoryScope.policyKey_normalized, ← hkey]
  have hiff : o.policyKey l = o.policyKey level' ↔ l = level' := by
    refine ⟨fun heq => ?_, fun heq => heq ▸ rfl⟩
    have := keyed_eq_of_policyKey_eq heq
    rwa [(mem_policyLevels.mp hl).1, (mem_policyLevels.mp hlevel).1] at this
  simp only [hiff]
  rfl

/-- **A policy reaches every scope that asks for one under its key**: there is a store in
which setting it makes a difference. -/
theorem exists_resolvePolicy_ne (cfg : MemoryConfig) {level' : ScopeLevel}
    (hlevel : level' ∈ policyLevels o.normalized)
    (hkey : o.policyKey level' = scope.policyKey level) :
    ∃ store : InMemoryStore,
      resolvePolicy (store.setPolicy level scope policy).getPolicy cfg o ≠
        resolvePolicy store.getPolicy cfg o := by
  -- the policy in its place says the opposite of recall
  let other : MemoryPolicy :=
    { recallEnabled := some !(policy.recallEnabled.getD cfg.effective.recallEnabled) }
  refine ⟨new.setPolicy level scope other, fun hcon => ?_⟩
  have htwice : ((new.setPolicy level scope other).setPolicy level scope policy).getPolicy =
      (new.setPolicy level scope policy).getPolicy := by
    funext l p
    simp only [getPolicy_setPolicy]
    split <;> rfl
  rw [htwice, resolvePolicy_new_setPolicy hlevel hkey,
    resolvePolicy_new_setPolicy hlevel hkey] at hcon
  have hrecall := congrArg EffectivePolicy.recallEnabled hcon
  simp [applyPolicy, other] at hrecall

end Reach

/-! ### Whose policy is changed -/

section Collisions

variable {tenantId teamId : String} {level : ScopeLevel} {scope : MemoryScope}

/-- **The level is one of a team or a cluster, and its key belongs to this scope alone.** -/
def MemoryScope.KeepsTo (scope : MemoryScope) (level : ScopeLevel) : Prop :=
  (level = .team ∨ level = .cluster) ∧ scope.SeparatedAt level

/-- Such a policy is asked for in scopes of its own team only. -/
theorem policyKey_ne_of_keepsTo (h : validatePolicyScope level scope = .ok ())
    (hteam : scope.OfTeam tenantId teamId) (hkeeps : scope.KeepsTo level) {o : MemoryScope}
    (ho : ¬ o.OfTeam tenantId teamId) {level' : ScopeLevel}
    (hlevel : level' ∈ policyLevels o.normalized) :
    o.policyKey level' ≠ scope.policyKey level := by
  intro hkey
  obtain ⟨rfl, rfl⟩ := hteam
  rw [validatePolicyScope_ok_iff] at h
  obtain ⟨hkeyed', hfields'⟩ := mem_policyLevels.mp hlevel
  have hlevels := keyed_eq_of_policyKey_eq hkey
  rw [hkeyed'] at hlevels
  obtain ⟨rfl | rfl, hsep⟩ := hkeeps
  · obtain rfl : level' = .team := hlevels
    simp only [ScopeLevel.fields, List.forall_mem_cons, List.not_mem_nil, false_implies,
      implies_true, and_true] at h hfields'
    exact ho ((policyKey_team_unique_iff h.1 h.2).mpr hsep o hfields'.1 hfields'.2 hkey)
  · obtain rfl : level' = .cluster := hlevels
    simp only [ScopeLevel.fields, List.forall_mem_cons, List.not_mem_nil, false_implies,
      implies_true, and_true] at h hfields'
    obtain ⟨htenant, hteam, -⟩ := (policyKey_cluster_unique_iff h.1 h.2.1 h.2.2).mpr hsep o
      hfields'.1 hfields'.2.1 hfields'.2.2 hkey
    exact ho ⟨htenant, hteam⟩

/-- **Any other policy is asked for in a scope of another team**, or of none. -/
theorem exists_policyKey_eq (ht : tenantId ≠ "") (hm : teamId ≠ "")
    (h : validatePolicyScope level scope = .ok ()) (hkeyed : level.keyed = level)
    (hteam : level ≠ .global → scope.OfTeam tenantId teamId) (hkeeps : ¬ scope.KeepsTo level) :
    ∃ o : MemoryScope, ¬ o.OfTeam tenantId teamId ∧ level ∈ policyLevels o.normalized ∧
      o.policyKey level = scope.policyKey level := by
  rw [validatePolicyScope_ok_iff] at h
  cases level with
  | other name => cases hkeyed
  | global =>
    refine ⟨{}, fun hof => ht hof.1.symm, by decide, rfl⟩
  | tenant =>
    obtain ⟨rfl, rfl⟩ := hteam (by simp)
    have htrim := trimSpace_trimSpace scope.tenantId
    refine ⟨{ tenantId := scope.normalized.tenantId }, fun hof => hm hof.2.symm, ?_, ?_⟩
    · exact mem_policyLevels.mpr
        ⟨rfl, by simpa [ScopeLevel.fields, MemoryScope.normalized] using ht⟩
    · simp [MemoryScope.policyKey, MemoryScope.normalized]
  | team =>
    obtain ⟨rfl, rfl⟩ := hteam (by simp)
    have hsep : ¬ scope.SeparatedAt .team := fun hsep => hkeeps ⟨.inl rfl, hsep⟩
    rw [← policyKey_team_unique_iff ht hm] at hsep
    push Not at hsep
    obtain ⟨o, hot, hom, hkey, hne⟩ := hsep
    exact ⟨o, fun hof => hne hof.1 hof.2,
      mem_policyLevels.mpr ⟨rfl, by simpa [ScopeLevel.fields] using ⟨hot, hom⟩⟩, hkey⟩
  | cluster =>
    obtain ⟨rfl, rfl⟩ := hteam (by simp)
    have hc : scope.normalized.clusterId ≠ "" := h _ (by simp [ScopeLevel.fields])
    have hsep : ¬ scope.SeparatedAt .cluster := fun hsep => hkeeps ⟨.inr rfl, hsep⟩
    rw [← policyKey_cluster_unique_iff ht hm hc] at hsep
    push Not at hsep
    obtain ⟨o, hot, hom, hoc, hkey, hne⟩ := hsep
    refine ⟨o, fun hof => hne hof.1 hof.2 ?_,
      mem_policyLevels.mpr ⟨rfl, by simpa [ScopeLevel.fields] using ⟨hot, hom, hoc⟩⟩, hkey⟩
    -- with one tenant and one team, one key means one cluster
    rw [← String.toList_inj] at hkey ⊢
    obtain ⟨htenant, hteam⟩ := hof
    simpa [MemoryScope.policyKey, htenant, hteam] using hkey

end Collisions

/-! ### Containment -/

/-- **A request is contained in a team**: the memories that it returns and changes are the
team's, and the policies of all other scopes are resolved as before. -/
structure Contained (cfg : MemoryConfig) (tenantId teamId : String) (store : InMemoryStore)
    (outcome : InMemoryStore × Except String MemoryReply) : Prop where
  returned : ∀ items, outcome.2 = .ok (.memories items) → ∀ m ∈ items, m.OfTeam tenantId teamId
  changed : ∀ m, ¬ m.OfTeam tenantId teamId → (m ∈ outcome.1.longTerm ↔ m ∈ store.longTerm)
  policies : ∀ o : MemoryScope, ¬ o.OfTeam tenantId teamId →
    resolvePolicy outcome.1.getPolicy cfg o = resolvePolicy store.getPolicy cfg o

/-- **The condition on a request**: a policy that is set is set for a team or a cluster whose
key belongs to it alone. -/
def MemoryRequest.KeepsToTeam (toLower : Char → Char) (claims : TokenClaims) :
    MemoryRequest → Prop
  | .setMemoryPolicy (.ok req) => ∀ level scope,
    checkedPolicyScope toLower (some claims) req = .ok (level, scope) → scope.KeepsTo level
  | .listMemories _ | .deleteMemory _ _ | .clearMemories _ | .setMemoryPolicy (.error _) => True

section Requests

variable {cfg : MemoryConfig} {toLower : Char → Char} {claims : TokenClaims}
  {tenantId teamId : String} {store : InMemoryStore} {env : Env}

theorem listMemories_eq {selector : MemorySelector}
    (h : validateMemoryScope selector.scope = .ok ()) :
    listMemories store selector env =
      store.listLongTermMemories selector (env.now 0) env.sorting := by
  unfold listMemories
  simp only [h, bind, Except.bind]

theorem map_ne_memories {result : Except String Unit} {reply : MemoryReply}
    (h : ∀ items, reply ≠ .memories items) (items : List LongTermMemory) :
    (result.map fun _ => reply) ≠ .ok (.memories items) := by
  cases result with
  | error e => exact fun hcon => (nomatch hcon)
  | ok u => exact fun hcon => h items (Except.ok.inj hcon)

/-- A request that leaves the store as it is and returns no memories. -/
theorem contained_of_unchanged {reply : Except String MemoryReply}
    (h : ∀ items, reply ≠ .ok (.memories items)) :
    Contained cfg tenantId teamId store (store, reply) :=
  ⟨fun items hitems => absurd hitems (h items), fun _ _ => Iff.rfl, fun _ _ => rfl⟩

/-- A deletion for the team. -/
theorem contained_of_teamChange {store' : InMemoryStore} {reply : Except String MemoryReply}
    (hchange : TeamChange tenantId teamId store store')
    (h : ∀ items, reply ≠ .ok (.memories items)) :
    Contained cfg tenantId teamId store (store', reply) := by
  refine ⟨fun items hitems => absurd hitems (h items), hchange.outside, fun o _ => ?_⟩
  have hget : store'.getPolicy = store.getPolicy := by
    unfold getPolicy
    rw [hchange.policies]
  rw [hget]

variable (hrole : equalFold claims.role.text "admin" = false) (ht : claims.tenantId ≠ "")
  (hm : claims.teamId ≠ "")

include hrole ht hm

/-- **A listing returns memories of the team only.** -/
theorem contained_listMemories (q : MemoryQuery) :
    Contained cfg claims.tenantId claims.teamId store
      (handleMemory toLower store (some claims) env (.listMemories q)) := by
  refine ⟨fun items hitems m hmem => ?_, fun _ _ => Iff.rfl, fun _ _ => rfl⟩
  rw [handleMemory] at hitems
  cases hselector : checkedSelector (some claims) q with
  | error e =>
    rw [hselector] at hitems
    cases hitems
  | ok selector =>
    have hteam := checkedSelector_ok hrole ht hm hselector
    have hscope : validateMemoryScope selector.scope = .ok () :=
      validateMemoryScope_ok_iff.mpr (by rw [hteam.1, hteam.2]; exact ⟨ht, hm⟩)
    have hlist : listMemories store selector env =
        .ok (limited selector.limit (env.sorting.sort (store.selected selector (env.now 0)))) := by
      rw [listMemories_eq hscope, listLongTermMemories_eq store hscope]
    simp only [hselector, hlist, bind, Except.bind, Except.ok.injEq,
      MemoryReply.memories.injEq] at hitems
    rw [← hitems] at hmem
    exact ofTeam_of_selected ht hm hteam (env.sorting.mem_sort.mp (mem_limited hmem))

/-- **A deletion and a clearing change memories of the team only.** -/
theorem contained_deleteMemory (id : String) (q : MemoryQuery) :
    Contained cfg claims.tenantId claims.teamId store
      (handleMemory toLower store (some claims) env (.deleteMemory id q)) := by
  rw [handleMemory]
  split
  · exact contained_of_unchanged fun _ h => (nomatch h)
  · next selector hselector =>
    have hteam := checkedSelector_ok hrole ht hm hselector
    split
    · exact contained_of_unchanged fun _ h => (nomatch h)
    · have hchange : TeamChange claims.tenantId claims.teamId store _ :=
        teamChange_deleteMemories { selector with id := trimSpace id } ht hm hteam env
      generalize deleteMemories store { selector with id := trimSpace id } env = outcome
        at hchange ⊢
      obtain ⟨store', result⟩ := outcome
      exact contained_of_teamChange hchange (map_ne_memories fun _ h => (nomatch h))

theorem contained_clearMemories (q : MemoryQuery) :
    Contained cfg claims.tenantId claims.teamId store
      (handleMemory toLower store (some claims) env (.clearMemories q)) := by
  rw [handleMemory]
  split
  · exact contained_of_unchanged fun _ h => (nomatch h)
  · next selector hselector =>
    have hchange : TeamChange claims.tenantId claims.teamId store _ :=
      teamChange_deleteMemories selector ht hm (checkedSelector_ok hrole ht hm hselector) env
    generalize deleteMemories store selector env = outcome at hchange ⊢
    obtain ⟨store', result⟩ := outcome
    exact contained_of_teamChange hchange (map_ne_memories fun _ h => (nomatch h))

/-- **Which policies are contained.** -/
theorem contained_setMemoryPolicy_iff (cfg : MemoryConfig) (toLower : Char → Char)
    (req : MemoryPolicyReq) :
    (∀ store env, Contained cfg claims.tenantId claims.teamId store
      (handleMemory toLower store (some claims) env (.setMemoryPolicy (.ok req)))) ↔
      ∀ level scope, checkedPolicyScope toLower (some claims) req = .ok (level, scope) →
        scope.KeepsTo level := by
  have hset : ∀ level scope, checkedPolicyScope toLower (some claims) req = .ok (level, scope) →
      ∀ store env, handleMemory toLower store (some claims) env (.setMemoryPolicy (.ok req)) =
        (store.setPolicy level scope req.policy, .ok (.policySet level scope)) := by
    intro level scope hchecked store env
    have hvalid := (checkedPolicyScope_ok hrole ht hm hchecked).1
    simp only [handleMemory, hchecked, setMemoryPolicy_eq hvalid]
    rfl
  constructor
  · intro hall level scope hchecked
    obtain ⟨hvalid, hkeyed, hteam⟩ := checkedPolicyScope_ok hrole ht hm hchecked
    by_contra hkeeps
    obtain ⟨o, ho, hlevel, hkey⟩ := exists_policyKey_eq ht hm hvalid hkeyed hteam hkeeps
    obtain ⟨store, hne⟩ := exists_resolvePolicy_ne cfg hlevel hkey
    refine hne ?_
    have hpolicies := (hall store quietEnv).policies o ho
    rwa [hset level scope hchecked] at hpolicies
  · intro hkeeps store env
    cases hchecked : checkedPolicyScope toLower (some claims) req with
    | error e =>
      rw [handleMemory, hchecked]
      exact contained_of_unchanged fun _ h => (nomatch h)
    | ok found =>
      obtain ⟨level, scope⟩ := found
      obtain ⟨hvalid, -, hteam⟩ := checkedPolicyScope_ok hrole ht hm hchecked
      rw [hset level scope hchecked]
      have hkeeps := hkeeps level scope hchecked
      have hglobal : level ≠ .global := by
        rintro rfl
        rcases hkeeps.1 with h | h <;> cases h
      refine ⟨fun _ h => (nomatch h), fun _ _ => Iff.rfl, fun o ho => ?_⟩
      exact resolvePolicy_setPolicy_of_ne fun level' hlevel =>
        policyKey_ne_of_keepsTo hvalid (hteam hglobal) hkeeps ho hlevel

end Requests

/-- **When a request is contained in the team of its caller.** For every caller who is no
administrator and whose token names a tenant and a team, every request, and all stores and
environments: the request returns and changes only memories of that team and leaves the
policies of all other scopes alone if and only if it sets no policy, or the policy is
refused, or it is set for a team or a cluster whose identifiers cannot be read as those of
another one. -/
theorem request_contained_iff (cfg : MemoryConfig) (toLower : Char → Char) (claims : TokenClaims)
    (hrole : equalFold claims.role.text "admin" = false) (ht : claims.tenantId ≠ "")
    (hm : claims.teamId ≠ "") (request : MemoryRequest) :
    (∀ store env, Contained cfg claims.tenantId claims.teamId store
      (handleMemory toLower store (some claims) env request)) ↔
      request.KeepsToTeam toLower claims := by
  cases request with
  | listMemories q =>
    exact ⟨fun _ => trivial, fun _ _ _ => contained_listMemories hrole ht hm q⟩
  | deleteMemory id q =>
    exact ⟨fun _ => trivial, fun _ _ _ => contained_deleteMemory hrole ht hm id q⟩
  | clearMemories q =>
    exact ⟨fun _ => trivial, fun _ _ _ => contained_clearMemories hrole ht hm q⟩
  | setMemoryPolicy body =>
    cases body with
    | error e =>
      exact ⟨fun _ => trivial, fun _ _ _ => contained_of_unchanged fun _ h => (nomatch h)⟩
    | ok req => exact contained_setMemoryPolicy_iff hrole ht hm cfg toLower req

theorem clearMemories_contained :
    Contained {} "acme" "sre" .new (handleMemory Char.toLower .new (some aliceToken)
      quietEnv (.clearMemories { tenantId := "acme", teamId := "sre" })) :=
  (request_contained_iff {} Char.toLower aliceToken (by decide) (by decide) (by decide)
    (.clearMemories { tenantId := "acme", teamId := "sre" })).mpr trivial .new quietEnv

/-- **A user who is no administrator turns recall on for everyone.** -/
theorem setMemoryPolicy_of_everyone :
    ¬ ∀ cfg toLower claims request, equalFold claims.role.text "admin" = false →
      claims.tenantId ≠ "" → claims.teamId ≠ "" → ∀ store env,
        Contained cfg claims.tenantId claims.teamId store
          (handleMemory toLower store (some claims) env request) := by
  intro hall
  have hcontained := hall {} Char.toLower aliceToken
    (.setMemoryPolicy (.ok { level := "global", recallEnabled := some true }))
    (by decide) (by decide) (by decide) .new quietEnv
  have hother := hcontained.policies { tenantId := "other", teamId := "team" }
    (fun h => absurd h.1 (by decide))
  have hrecall := congrArg EffectivePolicy.recallEnabled hother
  revert hrecall
  decide

end MonitorSystem
