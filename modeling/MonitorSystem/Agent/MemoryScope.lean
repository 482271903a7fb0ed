import MonitorSystem.Text

/-!
# Scopes and policies of the agent's memory

The data of `agent_service/internal/session/memory` (`types.go`, `policy.go`): the scope of
a conversation or of a memory, the keys under which the stores keep sessions and policies,
and how the policies of the levels are merged.

A scope is normalised by trimming its identifiers; nothing else is done to them. The keys
join the identifiers by a slash. What that means for the separation of scopes is the
subject of `ScopeKeys`.
-/

namespace MonitorSystem

/-! ### Scopes -/

/-- `ScopeLevel`: the four levels, and any other text that a caller may put in their place. -/
inductive ScopeLevel where
  | global
  | tenant
  | team
  | cluster
  | other (name : String)
  deriving DecidableEq, Repr

/-- `MemoryScope`. -/
@[ext]
structure MemoryScope where
  tenantId : String := ""
  teamId : String := ""
  clusterId : String := ""
  userId : String := ""
  sessionId : String := ""
  deriving DecidableEq, Repr

namespace MemoryScope

/-- `Normalized`. -/
def normalized (s : MemoryScope) : MemoryScope where
  tenantId := trimSpace s.tenantId
  teamId := trimSpace s.teamId
  clusterId := trimSpace s.clusterId
  userId := trimSpace s.userId
  sessionId := trimSpace s.sessionId

@[simp] theorem normalized_normalized (s : MemoryScope) :
    s.normalized.normalized = s.normalized := by
  simp [normalized]

end MemoryScope

/-- `ValidateMemoryScope`. -/
def validateMemoryScope (scope : MemoryScope) : Except String Unit :=
  if scope.normalized.tenantId = "" then .error "租户 ID 不能为空"
  else if scope.normalized.teamId = "" then .error "团队 ID 不能为空"
  else .ok ()

/-- `ValidateSessionScope`. -/
def validateSessionScope (scope : MemoryScope) : Except String Unit := do
  validateMemoryScope scope.normalized
  if scope.normalized.sessionId = "" then .error "会话 ID 不能为空"

/-- `ValidatePolicyScope`. -/
def validatePolicyScope (level : ScopeLevel) (scope : MemoryScope) : Except String Unit :=
  match level with
  | .global => .ok ()
  | .tenant => if scope.normalized.tenantId = "" then .error "租户 ID 不能为空" else .ok ()
  | .team => validateMemoryScope scope.normalized
  | .cluster => do
    validateMemoryScope scope.normalized
    if scope.normalized.clusterId = "" then .error "集群 ID 不能为空"
  | .other _ => .ok ()

namespace MemoryScope

/-- `SessionKey`. -/
def sessionKey (s : MemoryScope) : String :=
  "/".intercalate [s.normalized.tenantId, s.normalized.teamId, s.normalized.clusterId,
    s.normalized.userId, s.normalized.sessionId]

/-- `PolicyKey`. -/
def policyKey (s : MemoryScope) : ScopeLevel → String
  | .global => "global"
  | .tenant => "tenant/" ++ s.normalized.tenantId
  | .team => "team/" ++ s.normalized.tenantId ++ "/" ++ s.normalized.teamId
  | .cluster =>
    "cluster/" ++ s.normalized.tenantId ++ "/" ++ s.normalized.teamId ++ "/" ++
      s.normalized.clusterId
  | .other _ => "global"

/-- `MostSpecificPolicyLevel`. -/
def mostSpecificPolicyLevel (s : MemoryScope) : ScopeLevel :=
  if s.normalized.clusterId ≠ "" then .cluster
  else if s.normalized.teamId ≠ "" then .team
  else if s.normalized.tenantId ≠ "" then .tenant
  else .global

@[simp] theorem sessionKey_normalized (s : MemoryScope) :
    s.normalized.sessionKey = s.sessionKey := by
  simp [sessionKey]

@[simp] theorem policyKey_normalized (s : MemoryScope) (level : ScopeLevel) :
    s.normalized.policyKey level = s.policyKey level := by
  cases level <;> simp [policyKey]

end MemoryScope

/-- `redisSessionKey`. -/
def redisSessionKey (scope : MemoryScope) : String :=
  "agent:session:" ++ scope.normalized.sessionKey

/-! ### What the validations accept -/

theorem validateMemoryScope_ok_iff {scope : MemoryScope} :
    validateMemoryScope scope = .ok () ↔
      scope.normalized.tenantId ≠ "" ∧ scope.normalized.teamId ≠ "" := by
  unfold validateMemoryScope
  split
  · next h => simp [h]
  · split
    · next h h' => simp [h']
    · next h h' => simp [h, h']

@[simp] theorem validateMemoryScope_normalized (scope : MemoryScope) :
    validateMemoryScope scope.normalized = validateMemoryScope scope := by
  unfold validateMemoryScope
  rw [MemoryScope.normalized_normalized]

/-- Two checks one after the other. -/
theorem seq_ok_iff {x y : Except String Unit} :
    (x >>= fun _ => y) = .ok () ↔ x = .ok () ∧ y = .ok () := by
  cases x with
  | error e => exact ⟨fun h => (nomatch h), fun h => (nomatch h.1)⟩
  | ok u => exact ⟨fun h => ⟨rfl, h⟩, fun h => h.2⟩

/-- A check that an identifier is there. -/
theorem required_ok_iff {s e : String} :
    (if s = "" then .error e else pure () : Except String Unit) = .ok () ↔ s ≠ "" := by
  split
  · next h => simp [h]
  · next h => exact ⟨fun _ => h, fun _ => rfl⟩

theorem validateSessionScope_ok_iff {scope : MemoryScope} :
    validateSessionScope scope = .ok () ↔
      scope.normalized.tenantId ≠ "" ∧ scope.normalized.teamId ≠ "" ∧
        scope.normalized.sessionId ≠ "" := by
  rw [validateSessionScope, seq_ok_iff, required_ok_iff, validateMemoryScope_normalized,
    validateMemoryScope_ok_iff, and_assoc]

@[simp] theorem validateSessionScope_normalized (scope : MemoryScope) :
    validateSessionScope scope.normalized = validateSessionScope scope := by
  unfold validateSessionScope
  rw [MemoryScope.normalized_normalized]

/-! ### Policies -/

/-- `MemoryPolicy`: an override, with what it leaves to the wider levels unset. -/
structure MemoryPolicy where
  longTermEnabled : Option Bool := none
  writeEnabled : Option Bool := none
  recallEnabled : Option Bool := none
  recentWindow : ℤ := 0
  summaryWindow : ℤ := 0
  recallLimit : ℤ := 0
  tokenBudget : ℤ := 0
  deriving DecidableEq, Repr

/-- `EffectivePolicy`. -/
structure EffectivePolicy where
  longTermEnabled : Bool
  writeEnabled : Bool
  recallEnabled : Bool
  recentWindow : ℤ
  summaryWindow : ℤ
  recallLimit : ℤ
  tokenBudget : ℤ
  deriving DecidableEq, Repr

/-- `MemoryConfig`, with the values of `DefaultConfig`, less the fields that neither the
manager nor the policies read. -/
structure MemoryConfig where
  longTermEnabled : Bool := false
  writeEnabled : Bool := false
  recallEnabled : Bool := false
  recentWindow : ℤ := 6
  summaryWindow : ℤ := 12
  recallLimit : ℤ := 5
  tokenBudget : ℤ := 1200
  deriving DecidableEq, Repr

/-- `DefaultConfig`. -/
def defaultConfig : MemoryConfig := {}

/-- `positiveOrDefault`. -/
def positiveOrDefault (value fallback : ℤ) : ℤ := if value > 0 then value else fallback

/-- The policy of the configuration alone. -/
def MemoryConfig.effective (cfg : MemoryConfig) : EffectivePolicy where
  longTermEnabled := cfg.longTermEnabled
  writeEnabled := cfg.writeEnabled
  recallEnabled := cfg.recallEnabled
  recentWindow := positiveOrDefault cfg.recentWindow defaultConfig.recentWindow
  summaryWindow := positiveOrDefault cfg.summaryWindow defaultConfig.summaryWindow
  recallLimit := positiveOrDefault cfg.recallLimit defaultConfig.recallLimit
  tokenBudget := positiveOrDefault cfg.tokenBudget defaultConfig.tokenBudget

/-- `applyPolicy`. -/
def applyPolicy (effective : EffectivePolicy) (policy : MemoryPolicy) : EffectivePolicy where
  longTermEnabled := policy.longTermEnabled.getD effective.longTermEnabled
  writeEnabled := policy.writeEnabled.getD effective.writeEnabled
  recallEnabled := policy.recallEnabled.getD effective.recallEnabled
  recentWindow := positiveOrDefault policy.recentWindow effective.recentWindow
  summaryWindow := positiveOrDefault policy.summaryWindow effective.summaryWindow
  recallLimit := positiveOrDefault policy.recallLimit effective.recallLimit
  tokenBudget := positiveOrDefault policy.tokenBudget effective.tokenBudget

/-- The levels that `ResolvePolicy` asks for, from the widest one on. -/
def policyLevels (scope : MemoryScope) : List ScopeLevel :=
  .global :: ((if scope.tenantId ≠ "" then [.tenant] else []) ++
    (if scope.tenantId ≠ "" ∧ scope.teamId ≠ "" then [.team] else []) ++
    if scope.tenantId ≠ "" ∧ scope.teamId ≠ "" ∧ scope.clusterId ≠ "" then [.cluster] else [])

/-- One level of `ResolvePolicy`. -/
def applyLevel (getPolicy : ScopeLevel → MemoryScope → Option MemoryPolicy) (scope : MemoryScope)
    (effective : EffectivePolicy) (level : ScopeLevel) : EffectivePolicy :=
  match getPolicy level scope with
  | none => effective
  | some policy => applyPolicy effective policy

/-- **`ResolvePolicy`** over a store that answers `getPolicy`: the overrides of the levels
one after the other, the more specific ones last. -/
def resolvePolicy (getPolicy : ScopeLevel → MemoryScope → Option MemoryPolicy)
    (cfg : MemoryConfig) (scope : MemoryScope) : EffectivePolicy :=
  (policyLevels scope.normalized).foldl (applyLevel getPolicy scope.normalized) cfg.effective

/-- A policy whose bounds are all positive. -/
structure EffectivePolicy.Positive (p : EffectivePolicy) : Prop where
  recentWindow : 0 < p.recentWindow
  summaryWindow : 0 < p.summaryWindow
  recallLimit : 0 < p.recallLimit
  tokenBudget : 0 < p.tokenBudget

theorem positiveOrDefault_pos {value fallback : ℤ} (h : 0 < fallback) :
    0 < positiveOrDefault value fallback := by
  unfold positiveOrDefault
  split <;> assumption

theorem MemoryConfig.effective_positive (cfg : MemoryConfig) : cfg.effective.Positive :=
  ⟨positiveOrDefault_pos (by decide), positiveOrDefault_pos (by decide),
    positiveOrDefault_pos (by decide), positiveOrDefault_pos (by decide)⟩

theorem applyPolicy_positive {effective : EffectivePolicy} (h : effective.Positive)
    (policy : MemoryPolicy) : (applyPolicy effective policy).Positive :=
  ⟨positiveOrDefault_pos h.recentWindow, positiveOrDefault_pos h.summaryWindow,
    positiveOrDefault_pos h.recallLimit, positiveOrDefault_pos h.tokenBudget⟩

/-- **Every bound of a resolved policy is positive.** -/
theorem resolvePolicy_positive (getPolicy : ScopeLevel → MemoryScope → Option MemoryPolicy)
    (cfg : MemoryConfig) (scope : MemoryScope) : (resolvePolicy getPolicy cfg scope).Positive := by
  unfold resolvePolicy
  generalize policyLevels scope.normalized = levels
  have hcfg := cfg.effective_positive
  revert hcfg
  generalize cfg.effective = effective
  intro heff
  induction levels generalizing effective with
  | nil => exact heff
  | cons level levels ih =>
    refine ih _ ?_
    unfold applyLevel
    split
    · exact heff
    · exact applyPolicy_positive heff _

/-- Stores that answer the same for the levels of a scope resolve its policy alike. -/
theorem resolvePolicy_congr {get get' : ScopeLevel → MemoryScope → Option MemoryPolicy}
    {cfg : MemoryConfig} {scope : MemoryScope}
    (h : ∀ level ∈ policyLevels scope.normalized,
      get level scope.normalized = get' level scope.normalized) :
    resolvePolicy get cfg scope = resolvePolicy get' cfg scope := by
  unfold resolvePolicy
  revert h
  generalize policyLevels scope.normalized = levels
  generalize cfg.effective = effective
  intro h
  induction levels generalizing effective with
  | nil => rfl
  | cons level levels ih =>
    have hlevel : applyLevel get scope.normalized effective level =
        applyLevel get' scope.normalized effective level := by
      simp [applyLevel, h level List.mem_cons_self]
    rw [List.foldl_cons, List.foldl_cons, hlevel]
    exact ih _ fun l hl => h l (List.mem_cons_of_mem level hl)

end MonitorSystem
