import MonitorSystem.Agent.MySqlStore
import MonitorSystem.Agent.ScopeKeys
import MonitorSystem.Library.Overrides

/-!
# Policies in the two stores

`ResolvePolicy` reads the overrides of a scope from a store, level by level. `InMemoryStore` keeps
an override under the identifiers of its level, so that an override of a tenant is found for all
of its teams. `MySQLMemoryStore` keeps it in a row with all identifiers, and looks for the row with
those of the scope.

Where every override sets all fields, one call decides what is resolved (`Overrides.deciding`):
in memory among the calls whose identifiers of their level are those of the scope
(`PolicyCall.applies`), in MySQL among those that name the scope in full (`PolicyCall.names`).
-/

namespace MonitorSystem

open Segments

/-! ### Calls -/

/-- A call of `SetPolicy`. -/
structure PolicyCall where
  level : ScopeLevel
  scope : MemoryScope
  policy : MemoryPolicy
  deriving DecidableEq, Repr

/-- An override that sets all fields. -/
structure MemoryPolicy.Full (policy : MemoryPolicy) : Prop where
  longTermEnabled : policy.longTermEnabled.isSome
  writeEnabled : policy.writeEnabled.isSome
  recallEnabled : policy.recallEnabled.isSome
  recentWindow : 0 < policy.recentWindow
  summaryWindow : 0 < policy.summaryWindow
  recallLimit : 0 < policy.recallLimit
  tokenBudget : 0 < policy.tokenBudget

namespace PolicyCall

/-- **A call that `ValidatePolicyScope` accepts**, with an override that sets all fields and
identifiers without a slash. -/
structure Accepted (c : PolicyCall) : Prop where
  valid : validatePolicyScope c.level c.scope = .ok ()
  full : c.policy.Full
  tenant : '/' ∉ c.scope.normalized.tenantId.toList
  team : '/' ∉ c.scope.normalized.teamId.toList
  cluster : '/' ∉ c.scope.normalized.clusterId.toList

/-- The call is for a level, with the identifiers that a scope has at this level. -/
def applies (scope : MemoryScope) (level : ScopeLevel) (c : PolicyCall) : Bool :=
  c.level.keyed = level ∧ level.fields c.scope.normalized = level.fields scope.normalized

/-- The call is for a level, with all identifiers of a scope. -/
def names (scope : MemoryScope) (level : ScopeLevel) (c : PolicyCall) : Bool :=
  MySQLMemoryStore.policyColumns c.level c.scope = MySQLMemoryStore.policyColumns level scope

variable {c : PolicyCall} {scope : MemoryScope} {level : ScopeLevel}

theorem Accepted.separatedAt (h : c.Accepted) (level : ScopeLevel) : c.scope.SeparatedAt level := by
  have htenant : Solid isSpace '/' c.scope.normalized.tenantId.toList := solid_of_notMem h.tenant
  have hteam : Solid isSpace '/' c.scope.normalized.teamId.toList := solid_of_notMem h.team
  have hcluster : Solid isSpace '/' c.scope.normalized.clusterId.toList :=
    solid_of_notMem h.cluster
  cases level with
  | team =>
    exact ⟨fun y z hcut => absurd hcut (htenant y z), fun y z hcut => absurd hcut (hteam y z)⟩
  | cluster =>
    exact ⟨fun y z hcut => absurd hcut (htenant y z), fun y z hcut => absurd hcut (hteam y z),
      fun y z hcut => absurd hcut (hcluster y z)⟩
  | global | tenant | other => trivial

/-- Scopes with the same identifiers at a level have the same key there. -/
theorem policyKey_congr {s t : MemoryScope}
    (h : level.fields s.normalized = level.fields t.normalized) :
    s.policyKey level = t.policyKey level := by
  cases level <;> simp_all [ScopeLevel.fields, MemoryScope.policyKey]

/-- **The key of a call is that of a scope if and only if it applies.** -/
theorem policyKey_eq_iff (h : c.Accepted) (hlevel : level ∈ policyLevels scope.normalized) :
    scope.normalized.policyKey level = c.scope.policyKey c.level ↔
      c.applies scope level = true := by
  obtain ⟨hkeyed, -⟩ := mem_policyLevels.mp hlevel
  rw [MemoryScope.policyKey_normalized, applies, decide_eq_true_iff]
  constructor
  · intro hkey
    have hsame : c.level.keyed = level :=
      (keyed_eq_of_policyKey_eq hkey).symm.trans hkeyed
    rw [policyKey_keyed c.scope, hsame] at hkey
    have hvalid : validatePolicyScope level c.scope = .ok () := by
      rw [validatePolicyScope_ok_iff, ← hsame, fields_keyed, ← validatePolicyScope_ok_iff]
      exact h.valid
    exact ⟨hsame, ((policyKey_unique_iff hvalid).mpr (h.separatedAt level) scope
      (validatePolicyScope_of_mem hlevel) hkey).symm⟩
  · rintro ⟨hsame, hfields⟩
    rw [policyKey_keyed c.scope, hsame, policyKey_congr hfields]

/-- A call that names a scope in full applies to it. -/
theorem applies_of_names (hlevel : level ∈ policyLevels scope.normalized)
    (h : c.names scope level = true) : c.applies scope level = true := by
  obtain ⟨hkeyed, -⟩ := mem_policyLevels.mp hlevel
  rw [names, decide_eq_true_iff, MySQLMemoryStore.policyColumns, MySQLMemoryStore.policyColumns,
    Prod.mk.injEq, Prod.mk.injEq, Prod.mk.injEq] at h
  obtain ⟨hsame, htenant, hteam, hcluster⟩ := h
  rw [applies, decide_eq_true_iff, hsame]
  refine ⟨hkeyed, ?_⟩
  cases level <;> simp [ScopeLevel.fields, htenant, hteam, hcluster]

end PolicyCall

/-! ### What the stores answer -/

/-- The store after some calls. -/
def InMemoryStore.setPolicies (store : InMemoryStore) (calls : List PolicyCall) : InMemoryStore :=
  calls.foldl (fun store c => store.setPolicy c.level c.scope c.policy) store

/-- The store after some calls, of which one that is refused changes nothing. -/
def MySQLMemoryStore.setPolicies (db : MySQLMemoryStore) (calls : List PolicyCall) :
    MySQLMemoryStore :=
  calls.foldl (fun db c => (db.setPolicy c.level c.scope c.policy).toOption.getD db) db

section Answers

variable {calls : List PolicyCall} {scope : MemoryScope} {level : ScopeLevel}

/-- **In memory the last call that applies is found.** -/
theorem InMemoryStore.getPolicy_setPolicies (hcalls : ∀ c ∈ calls, c.Accepted)
    (hlevel : level ∈ policyLevels scope.normalized) :
    (InMemoryStore.new.setPolicies calls).getPolicy level scope.normalized =
      (calls.filter (PolicyCall.applies scope level)).getLast?.map (·.policy) := by
  have hset : ∀ c ∈ calls, ∀ store : InMemoryStore,
      (store.setPolicy c.level c.scope c.policy).getPolicy level scope.normalized =
        if c.applies scope level = true then some c.policy
        else store.getPolicy level scope.normalized := by
    intro c hc store
    have hkey := PolicyCall.policyKey_eq_iff (hcalls c hc) hlevel
    by_cases h : c.applies scope level = true
    · rw [if_pos h, InMemoryStore.getPolicy, hkey.mpr h]
      exact Function.update_self ..
    · rw [if_neg h]
      exact Function.update_of_ne (mt hkey.mp h) ..
  exact (Overrides.get_foldl (fun store : InMemoryStore =>
    store.getPolicy level scope.normalized) hset .new).trans (Option.or_none ..)

theorem MySQLMemoryStore.getPolicy_normalized (db : MySQLMemoryStore) (level : ScopeLevel)
    (scope : MemoryScope) : db.getPolicy level scope.normalized = db.getPolicy level scope := by
  have hcolumns : policyColumns level scope.normalized = policyColumns level scope := by
    simp only [policyColumns, MemoryScope.normalized_normalized]
  rw [getPolicy, getPolicy, hcolumns]

/-- **What `FirstOrCreate` does to the search for a row.** -/
theorem MySQLMemoryStore.find?_firstOrCreate (rows : List AgentMemoryScopeModel)
    (model : AgentMemoryScopeModel) (key : ScopeLevel × String × String × String) :
    (firstOrCreate rows model).find? (fun row => row.key = key) =
      if model.key = key then
        some ((rows.find? fun row => row.key = key).elim model (assigned model))
      else rows.find? fun row => row.key = key := by
  unfold firstOrCreate
  split
  · next hany =>
    have hkey : ∀ row : AgentMemoryScopeModel,
        (if row.key = model.key then assigned model row else row).key = row.key := by
      intro row
      split <;> rfl
    rw [List.find?_map]
    simp only [Function.comp_def, hkey]
    cases hfind : rows.find? fun row => row.key = key with
    | none =>
      have hne : model.key ≠ key := by
        rintro rfl
        obtain ⟨row, hrow, hsame⟩ := List.any_eq_true.mp hany
        exact absurd hsame (List.find?_eq_none.mp hfind row hrow)
      rw [if_neg hne]
      rfl
    | some row =>
      have hrow : row.key = key := by simpa using List.find?_some hfind
      rw [Option.map_some]
      by_cases h : model.key = key
      · rw [if_pos h, if_pos (hrow.trans h.symm)]
        rfl
      · rw [if_neg h, if_neg fun heq => h (heq.symm.trans hrow)]
  · next hnone =>
    rw [List.find?_append]
    by_cases h : model.key = key
    · have hfind : (rows.find? fun row => row.key = key) = none :=
        List.find?_eq_none.mpr fun row hrow hsame => hnone (List.any_eq_true.mpr ⟨row, hrow, by
          simpa [h] using hsame⟩)
      simp [hfind, h]
    · simp [h]

/-- A row that a full override has been written to is read as this override. -/
theorem MySQLMemoryStore.rowPolicy_policyModel (level : ScopeLevel) (scope : MemoryScope)
    {policy : MemoryPolicy} (h : policy.Full) (row : Option AgentMemoryScopeModel) :
    rowPolicy (row.elim (policyModel level scope policy)
      (assigned (policyModel level scope policy))) = policy := by
  obtain ⟨hlong, hwrite, hrecall, hrecent, hsummary, hlimit, hbudget⟩ := h
  obtain ⟨_ | longTerm, _ | writes, _ | recalls, recent, summary, limit, budget⟩ := policy
  case some.some.some =>
    have hptr : ∀ {v : ℤ}, 0 < v → positiveIntPtr v = some v := fun hv => if_neg (by omega)
    cases row <;>
      simp [rowPolicy, assigned, policyModel, hptr hrecent, hptr hsummary, hptr hlimit,
        hptr hbudget]
  all_goals simp at hlong hwrite hrecall

/-- **In MySQL the last call that names the scope in full is found.** -/
theorem MySQLMemoryStore.getPolicy_setPolicies (hcalls : ∀ c ∈ calls, c.Accepted) :
    (MySQLMemoryStore.empty.setPolicies calls).getPolicy level scope =
      (calls.filter (PolicyCall.names scope level)).getLast?.map (·.policy) := by
  have hset : ∀ c ∈ calls, ∀ db : MySQLMemoryStore,
      (((db.setPolicy c.level c.scope c.policy).toOption.getD db).getPolicy level scope) =
        if c.names scope level = true then some c.policy else db.getPolicy level scope := by
    intro c hc db
    have hrows : ((db.setPolicy c.level c.scope c.policy).toOption.getD db).policies =
        firstOrCreate db.policies (policyModel c.level c.scope c.policy) := by
      unfold setPolicy
      rw [(hcalls c hc).valid]
      rfl
    have hnames : c.names scope level = true ↔
        (policyModel c.level c.scope c.policy).key = policyColumns level scope := decide_eq_true_iff
    rw [getPolicy, hrows, find?_firstOrCreate]
    by_cases h : c.names scope level = true
    · rw [if_pos h, if_pos (hnames.mp h), Option.map_some,
        rowPolicy_policyModel c.level c.scope (hcalls c hc).full]
    · rw [if_neg h, if_neg (mt hnames.mpr h)]
      rfl
  exact (Overrides.get_foldl (fun db : MySQLMemoryStore => db.getPolicy level scope) hset
    .empty).trans (Option.or_none ..)

end Answers

/-! ### What is resolved -/

/-- The call that decides for a scope. -/
def decidingCall (concerns : MemoryScope → ScopeLevel → PolicyCall → Bool) (scope : MemoryScope)
    (calls : List PolicyCall) : Option (ScopeLevel × PolicyCall) :=
  Overrides.deciding (concerns scope) (policyLevels scope.normalized) calls

/-- The policy that a deciding call sets, or that of the configuration. -/
def settledPolicy (cfg : MemoryConfig) (decided : Option (ScopeLevel × PolicyCall)) :
    EffectivePolicy :=
  (decided.map fun d => applyPolicy cfg.effective d.2.policy).getD cfg.effective

theorem applyPolicy_full {policy : MemoryPolicy} (h : policy.Full) (e e' : EffectivePolicy) :
    applyPolicy e policy = applyPolicy e' policy := by
  obtain ⟨hlong, hwrite, hrecall, hrecent, hsummary, hlimit, hbudget⟩ := h
  have hbool : ∀ {o : Option Bool}, o.isSome = true → ∀ b b', o.getD b = o.getD b' := by
    rintro (_ | v) hsome b b'
    · cases hsome
    · rfl
  have hint : ∀ {v : ℤ}, 0 < v → ∀ d d', positiveOrDefault v d = positiveOrDefault v d' :=
    fun hv d d' => (if_pos hv).trans (if_pos hv).symm
  rw [applyPolicy, applyPolicy, hbool hlong e.longTermEnabled e'.longTermEnabled,
    hbool hwrite e.writeEnabled e'.writeEnabled, hbool hrecall e.recallEnabled e'.recallEnabled,
    hint hrecent e.recentWindow e'.recentWindow, hint hsummary e.summaryWindow e'.summaryWindow,
    hint hlimit e.recallLimit e'.recallLimit, hint hbudget e.tokenBudget e'.tokenBudget]

/-- **A store that finds the last call of those that concern a scope resolves its policy as the
deciding call sets it.** -/
theorem resolvePolicy_eq (cfg : MemoryConfig) {calls : List PolicyCall}
    (hcalls : ∀ c ∈ calls, c.Accepted) (scope : MemoryScope)
    {getPolicy : ScopeLevel → MemoryScope → Option MemoryPolicy}
    {concerns : MemoryScope → ScopeLevel → PolicyCall → Bool}
    (hget : ∀ level ∈ policyLevels scope.normalized, getPolicy level scope.normalized =
      (calls.filter (concerns scope level)).getLast?.map (·.policy)) :
    resolvePolicy getPolicy cfg scope = settledPolicy cfg (decidingCall concerns scope calls) := by
  have hlast : resolvePolicy getPolicy cfg scope = resolvePolicy
      (fun level _ => (calls.filter (concerns scope level)).getLast?.map (·.policy)) cfg scope :=
    resolvePolicy_congr hget
  have hread : resolvePolicy
      (fun level _ => (calls.filter (concerns scope level)).getLast?.map (·.policy)) cfg scope =
        Overrides.read (fun level => (calls.filter (concerns scope level)).getLast?.map (·.policy))
          applyPolicy cfg.effective (policyLevels scope.normalized) := by
    refine congrArg (fun step => List.foldl step cfg.effective (policyLevels scope.normalized)) ?_
    funext e level
    dsimp only [applyLevel]
    cases (calls.filter (concerns scope level)).getLast? <;> rfl
  rw [hlast, hread]
  exact Overrides.read_deciding fun c hc e => applyPolicy_full (hcalls c hc).full e cfg.effective

/-- **When the two stores agree.** After any accepted calls with full overrides and identifiers
without a slash, for every configuration and every scope, the policy that is resolved over
MySQL is the one that is resolved in memory if and only if the call that decides for the scope
names it in full, or sets the values that are in force without the calls that do not. -/
theorem policy_stores_agree_iff (cfg : MemoryConfig) {calls : List PolicyCall}
    (hcalls : ∀ c ∈ calls, c.Accepted) (scope : MemoryScope) :
    resolvePolicy (MySQLMemoryStore.empty.setPolicies calls).getPolicy cfg scope =
        resolvePolicy (InMemoryStore.new.setPolicies calls).getPolicy cfg scope ↔
      ∀ d ∈ decidingCall PolicyCall.applies scope calls,
        d.2.names scope d.1 = true ∨
          applyPolicy cfg.effective d.2.policy =
            settledPolicy cfg (decidingCall PolicyCall.names scope calls) := by
  have hnames : ∀ level ∈ policyLevels scope.normalized, ∀ c : PolicyCall,
      c.names scope level = true → c.applies scope level = true :=
    fun level hlevel c h => PolicyCall.applies_of_names hlevel h
  rw [resolvePolicy_eq cfg hcalls scope fun level _ =>
      (MySQLMemoryStore.getPolicy_normalized _ level scope).trans
        (MySQLMemoryStore.getPolicy_setPolicies hcalls),
    resolvePolicy_eq cfg hcalls scope fun level hlevel =>
      InMemoryStore.getPolicy_setPolicies hcalls hlevel]
  cases hdecides : decidingCall PolicyCall.applies scope calls with
  | none =>
    rw [decidingCall, Overrides.deciding_eq_none_of_imp hnames hdecides]
    exact iff_of_true rfl fun d hd => nomatch hd
  | some d =>
    obtain ⟨level, c⟩ := d
    constructor
    · rintro heq d hd
      obtain rfl := Option.some.inj hd
      exact .inr heq.symm
    · intro hall
      rcases hall _ rfl with hfull | hsame
      · rw [decidingCall, Overrides.deciding_of_imp hnames hdecides hfull]
      · exact hsame.symm

/-- An override that switches the long-term memory on. -/
def switchedOn : MemoryPolicy where
  longTermEnabled := some true
  writeEnabled := some true
  recallEnabled := some true
  recentWindow := 6
  summaryWindow := 12
  recallLimit := 5
  tokenBudget := 1200

theorem switchedOn_full : switchedOn.Full :=
  ⟨rfl, rfl, rfl, by decide, by decide, by decide, by decide⟩

/-- A cluster. -/
def prodScope : MemoryScope := { tenantId := "acme", teamId := "sre", clusterId := "prod" }

/-- An override for a cluster decides for it in both stores. -/
theorem policy_stores_agree_cluster :
    resolvePolicy (MySQLMemoryStore.empty.setPolicies
        [⟨.cluster, prodScope, switchedOn⟩]).getPolicy {} prodScope =
      resolvePolicy (InMemoryStore.new.setPolicies
        [⟨.cluster, prodScope, switchedOn⟩]).getPolicy {} prodScope :=
  (policy_stores_agree_iff {} (List.forall_mem_singleton.mpr
    ⟨by decide, switchedOn_full, by decide, by decide, by decide⟩) _).mpr (by decide +kernel)

/-- **An override for a tenant is not found in MySQL for its teams.** -/
theorem tenant_override_missed :
    PolicyCall.Accepted ⟨.tenant, { tenantId := "acme" }, switchedOn⟩ ∧
      (resolvePolicy (InMemoryStore.new.setPolicies
        [⟨.tenant, { tenantId := "acme" }, switchedOn⟩]).getPolicy {}
        { tenantId := "acme", teamId := "sre" }).longTermEnabled = true ∧
      (resolvePolicy (MySQLMemoryStore.empty.setPolicies
        [⟨.tenant, { tenantId := "acme" }, switchedOn⟩]).getPolicy {}
        { tenantId := "acme", teamId := "sre" }).longTermEnabled = false :=
  ⟨⟨by decide, switchedOn_full, by decide, by decide, by decide⟩, by decide +kernel,
    by decide +kernel⟩

end MonitorSystem
