import MonitorSystem.Agent.Sessions
import MonitorSystem.Library.Unwinding

/-!
# Which scopes have a key of their own

A session is stored under its five identifiers joined by slashes, a policy under the
identifiers of its level. An identifier may hold a slash, so two scopes can have one key.

A slash of an identifier matters only if no space stands beside it, since identifiers are
trimmed; such a slash is a `Segments.Cut`. `MemoryScope.Separated` says of a scope that its
identifiers have no cut, with exceptions where the cut would leave an empty identifier that
the validation refuses: at the beginning of the tenant, at the end of the session, and a
team that is a single slash. It is the exact condition for the session key to belong to
this scope alone (`sessionKey_unique_iff`), and `MemoryScope.SeparatedAt` is that for the
policy key of a level (`policyKey_unique_iff`).

A scope with a session key of its own is not touched by what happens in other scopes, in
any sequence of calls (`loadContext_run`); a scope whose key another scope has can be
changed from there.
-/

namespace MonitorSystem

open Segments InMemoryStore

/-! ### Separated scopes -/

/-- A slash at which a text falls into two trimmed texts. -/
def SlashAt (x : String) (y z : List Char) : Prop := Cut isSpace '/' x.toList y z

/-- **The identifiers of the scope cannot be read as those of another one** in a session
key. -/
structure MemoryScope.Separated (s : MemoryScope) : Prop where
  tenant : ∀ y z, SlashAt s.normalized.tenantId y z → y = []
  team : ∀ y z, SlashAt s.normalized.teamId y z → y = [] ∧ z = []
  cluster : ∀ y z, ¬ SlashAt s.normalized.clusterId y z
  user : ∀ y z, ¬ SlashAt s.normalized.userId y z
  session : ∀ y z, SlashAt s.normalized.sessionId y z → z = []

/-- The identifiers of the scope cannot be read as those of another one in the policy key
of a level. -/
def MemoryScope.SeparatedAt (s : MemoryScope) : ScopeLevel → Prop
  | .team =>
    (∀ y z, SlashAt s.normalized.tenantId y z → y = []) ∧
      ∀ y z, SlashAt s.normalized.teamId y z → z = []
  | .cluster =>
    (∀ y z, SlashAt s.normalized.tenantId y z → y = []) ∧
      (∀ y z, SlashAt s.normalized.teamId y z → y = [] ∧ z = []) ∧
      ∀ y z, SlashAt s.normalized.clusterId y z → z = []
  | .global | .tenant | .other _ => True

/-- The identifiers that a level looks at. -/
def ScopeLevel.fields (level : ScopeLevel) (s : MemoryScope) : List String :=
  match level with
  | .tenant => [s.tenantId]
  | .team => [s.tenantId, s.teamId]
  | .cluster => [s.tenantId, s.teamId, s.clusterId]
  | .global | .other _ => []

/-- A scope that is separated for sessions is separated at every level. -/
theorem MemoryScope.Separated.separatedAt {s : MemoryScope} (h : s.Separated)
    (level : ScopeLevel) : s.SeparatedAt level := by
  cases level with
  | team => exact ⟨h.tenant, fun y z hcut => (h.team y z hcut).2⟩
  | cluster => exact ⟨h.tenant, h.team, fun y z hcut => absurd hcut (h.cluster y z)⟩
  | global | tenant | other => trivial

/-! ### Keys as paths -/

theorem isSpace_slash : isSpace '/' = false := by decide

theorem sessionKey_toList (s : MemoryScope) :
    s.sessionKey.toList = ['/'].intercalate [s.normalized.tenantId.toList,
      s.normalized.teamId.toList, s.normalized.clusterId.toList, s.normalized.userId.toList,
      s.normalized.sessionId.toList] := by
  simp [MemoryScope.sessionKey]

theorem policyKey_team_toList (s : MemoryScope) :
    (s.policyKey .team).toList = "team/".toList ++ ['/'].intercalate
      [s.normalized.tenantId.toList, s.normalized.teamId.toList] := by
  simp [MemoryScope.policyKey, List.intercalate_cons_cons]

theorem policyKey_cluster_toList (s : MemoryScope) :
    (s.policyKey .cluster).toList = "cluster/".toList ++ ['/'].intercalate
      [s.normalized.tenantId.toList, s.normalized.teamId.toList,
        s.normalized.clusterId.toList] := by
  simp [MemoryScope.policyKey, List.intercalate_cons_cons]

/-- The scope with these words for identifiers. -/
def scopeOf (t m c u e : List Char) : MemoryScope :=
  ⟨.ofList t, .ofList m, .ofList c, .ofList u, .ofList e⟩

theorem normalized_scopeOf {t m c u e : List Char} (ht : Trimmed isSpace t)
    (hm : Trimmed isSpace m) (hc : Trimmed isSpace c) (hu : Trimmed isSpace u)
    (he : Trimmed isSpace e) : (scopeOf t m c u e).normalized = scopeOf t m c u e := by
  have htrim : ∀ l, Trimmed isSpace l → trimSpace (String.ofList l) = String.ofList l :=
    fun l hl => trimSpace_of_trimmedText (by simpa [TrimmedText] using hl)
  simp only [MemoryScope.normalized, scopeOf, htrim _ ht, htrim _ hm, htrim _ hc, htrim _ hu,
    htrim _ he]

theorem trimmed_normalized (s : MemoryScope) :
    Trimmed isSpace s.normalized.tenantId.toList ∧ Trimmed isSpace s.normalized.teamId.toList ∧
      Trimmed isSpace s.normalized.clusterId.toList ∧ Trimmed isSpace s.normalized.userId.toList ∧
      Trimmed isSpace s.normalized.sessionId.toList :=
  ⟨trimmedText_trimSpace _, trimmedText_trimSpace _, trimmedText_trimSpace _,
    trimmedText_trimSpace _, trimmedText_trimSpace _⟩

/-- The identifiers behind the tenant and the team in a session key. -/
def MemoryScope.sessionTail (s : MemoryScope) : List (List Char) :=
  [s.normalized.clusterId.toList, s.normalized.userId.toList, s.normalized.sessionId.toList]

theorem trimmed_sessionTail (s : MemoryScope) : ∀ w ∈ s.sessionTail, Trimmed isSpace w := by
  obtain ⟨-, -, hc, hu, he⟩ := trimmed_normalized s
  exact List.forall_mem_cons.mpr
    ⟨hc, List.forall_mem_cons.mpr ⟨hu, List.forall_mem_singleton.mpr he⟩⟩

theorem closed_sessionTail {s : MemoryScope} (h : s.normalized.sessionId ≠ "") :
    Closed s.sessionTail := by
  simpa [MemoryScope.sessionTail, Closed] using h

theorem length_sessionTail (s s' : MemoryScope) :
    s.sessionTail.length = s'.sessionTail.length := by
  simp [MemoryScope.sessionTail]

theorem toList_ne_nil {s : String} (h : s ≠ "") : s.toList ≠ [] := by simpa using h

/-- **Which scopes have a session key of their own**, among the scopes that the validation
accepts. -/
theorem sessionKey_unique_iff {s : MemoryScope} (h : validateSessionScope s = .ok ()) :
    (∀ s', validateSessionScope s' = .ok () → s'.sessionKey = s.sessionKey →
      s'.normalized = s.normalized) ↔ s.Separated := by
  obtain ⟨ht, hm, hs⟩ := validateSessionScope_ok_iff.mp h
  obtain ⟨htt, htm, -⟩ := trimmed_normalized s
  have hpath := path_unique_iff isSpace_slash htt htm (toList_ne_nil ht) (toList_ne_nil hm)
    (List.cons_ne_nil _ _) (trimmed_sessionTail s) (closed_sessionTail hs)
  have hsep : s.Separated ↔ _ := Iff.trans ⟨fun h => ⟨h.tenant, h.team, h.cluster, h.user,
    h.session⟩, fun h => ⟨h.1, h.2.1, h.2.2.1, h.2.2.2.1, h.2.2.2.2⟩⟩ hpath.symm
  rw [hsep]
  constructor
  · intro hu t' m' ys ht' hm' hys htne hmne hlength hclosed heq
    obtain ⟨c', u', e', rfl⟩ := List.length_eq_three.mp hlength
    obtain ⟨hc', hu', he'⟩ : Trimmed isSpace c' ∧ Trimmed isSpace u' ∧ Trimmed isSpace e' := by
      simpa using hys
    have hnorm := normalized_scopeOf ht' hm' hc' hu' he'
    have hene : e' ≠ [] := by simpa [Closed] using hclosed
    have hsame := hu (scopeOf t' m' c' u' e')
      (validateSessionScope_ok_iff.mpr (by rw [hnorm]; simpa [scopeOf] using ⟨htne, hmne, hene⟩))
      (by
        rw [← String.toList_inj, sessionKey_toList, sessionKey_toList, hnorm]
        simpa [scopeOf] using heq)
    rw [hnorm] at hsame
    simp [← hsame, scopeOf]
  · intro hu s' h' hkey
    obtain ⟨ht', hm', hs'⟩ := validateSessionScope_ok_iff.mp h'
    obtain ⟨htt', htm', -⟩ := trimmed_normalized s'
    rw [← String.toList_inj, sessionKey_toList, sessionKey_toList] at hkey
    have hsame := hu _ _ s'.sessionTail htt' htm' (trimmed_sessionTail s') (toList_ne_nil ht')
      (toList_ne_nil hm') (length_sessionTail s' s) (closed_sessionTail hs') hkey
    simp only [MemoryScope.sessionTail, String.toList_inj, List.cons.injEq, and_true] at hsame
    obtain ⟨htenant, hteam, hcluster, huser, hsession⟩ := hsame
    exact MemoryScope.ext htenant hteam hcluster huser hsession

/-- **What `ValidatePolicyScope` asks for**: the identifiers of the level. -/
theorem validatePolicyScope_ok_iff {level : ScopeLevel} {s : MemoryScope} :
    validatePolicyScope level s = .ok () ↔ ∀ w ∈ level.fields s.normalized, w ≠ "" := by
  cases level with
  | global => simp [validatePolicyScope, ScopeLevel.fields]
  | other name => simp [validatePolicyScope, ScopeLevel.fields]
  | tenant =>
    rw [validatePolicyScope]
    split
    · next h => simp [ScopeLevel.fields, h]
    · next h => simp [ScopeLevel.fields, h]
  | team =>
    rw [validatePolicyScope, validateMemoryScope_normalized, validateMemoryScope_ok_iff]
    simp [ScopeLevel.fields]
  | cluster =>
    rw [validatePolicyScope, seq_ok_iff, required_ok_iff, validateMemoryScope_normalized,
      validateMemoryScope_ok_iff]
    simp [ScopeLevel.fields, and_assoc]

theorem closed_singleton {w : List Char} : Closed [w] ↔ w ≠ [] := by simp [Closed]

theorem policyKey_team_unique_iff {s : MemoryScope} (ht : s.normalized.tenantId ≠ "")
    (hm : s.normalized.teamId ≠ "") :
    (∀ s' : MemoryScope, s'.normalized.tenantId ≠ "" → s'.normalized.teamId ≠ "" →
      s'.policyKey .team = s.policyKey .team →
      s'.normalized.tenantId = s.normalized.tenantId ∧ s'.normalized.teamId = s.normalized.teamId) ↔
      s.SeparatedAt .team := by
  obtain ⟨htt, htm, -⟩ := trimmed_normalized s
  have hpath := pair_unique_iff isSpace_slash htt htm (toList_ne_nil ht) (toList_ne_nil hm)
  refine Iff.trans ⟨?_, ?_⟩ hpath
  · intro hu t' m' ht' hm' htne hmne heq
    have hnorm := normalized_scopeOf ht' hm' trimmed_nil trimmed_nil trimmed_nil
    have hsame := hu (scopeOf t' m' [] [] []) (by rw [hnorm]; simpa [scopeOf] using htne)
      (by rw [hnorm]; simpa [scopeOf] using hmne)
      (by
        rw [← String.toList_inj, policyKey_team_toList, policyKey_team_toList, hnorm]
        simpa [scopeOf] using heq)
    rw [hnorm] at hsame
    simp [← hsame.1, ← hsame.2, scopeOf]
  · intro hu s' ht' hm' hkey
    obtain ⟨htt', htm', -⟩ := trimmed_normalized s'
    rw [← String.toList_inj, policyKey_team_toList, policyKey_team_toList] at hkey
    have hsame := hu _ _ htt' htm' (toList_ne_nil ht') (toList_ne_nil hm')
      (List.append_cancel_left hkey)
    exact ⟨String.toList_inj.mp hsame.1, String.toList_inj.mp hsame.2⟩

theorem policyKey_cluster_unique_iff {s : MemoryScope} (ht : s.normalized.tenantId ≠ "")
    (hm : s.normalized.teamId ≠ "") (hc : s.normalized.clusterId ≠ "") :
    (∀ s' : MemoryScope, s'.normalized.tenantId ≠ "" → s'.normalized.teamId ≠ "" →
      s'.normalized.clusterId ≠ "" → s'.policyKey .cluster = s.policyKey .cluster →
      s'.normalized.tenantId = s.normalized.tenantId ∧ s'.normalized.teamId = s.normalized.teamId ∧
        s'.normalized.clusterId = s.normalized.clusterId) ↔
      s.SeparatedAt .cluster := by
  obtain ⟨htt, htm, htc, -⟩ := trimmed_normalized s
  have hpath := path_unique_iff isSpace_slash htt htm (toList_ne_nil ht) (toList_ne_nil hm)
    (List.cons_ne_nil _ []) (List.forall_mem_singleton.mpr htc)
    (closed_singleton.mpr (toList_ne_nil hc))
  refine Iff.trans ⟨?_, ?_⟩ hpath
  · intro hu t' m' ys ht' hm' hys htne hmne hlength hclosed heq
    obtain ⟨c', rfl⟩ := List.length_eq_one_iff.mp hlength
    have hc' := List.forall_mem_singleton.mp hys
    have hnorm := normalized_scopeOf ht' hm' hc' trimmed_nil trimmed_nil
    have hsame := hu (scopeOf t' m' c' [] []) (by rw [hnorm]; simpa [scopeOf] using htne)
      (by rw [hnorm]; simpa [scopeOf] using hmne)
      (by rw [hnorm]; simpa [scopeOf] using closed_singleton.mp hclosed)
      (by
        rw [← String.toList_inj, policyKey_cluster_toList, policyKey_cluster_toList, hnorm]
        simpa [scopeOf] using heq)
    rw [hnorm] at hsame
    simp [← hsame.1, ← hsame.2.1, ← hsame.2.2, scopeOf]
  · intro hu s' ht' hm' hc' hkey
    obtain ⟨htt', htm', htc', -⟩ := trimmed_normalized s'
    rw [← String.toList_inj, policyKey_cluster_toList, policyKey_cluster_toList] at hkey
    have hsame := hu _ _ [s'.normalized.clusterId.toList] htt' htm'
      (List.forall_mem_singleton.mpr htc') (toList_ne_nil ht') (toList_ne_nil hm') (by simp)
      (closed_singleton.mpr (toList_ne_nil hc')) (List.append_cancel_left hkey)
    simpa [String.toList_inj] using hsame

/-- **Which scopes have a policy key of their own** at a level, among the scopes that the
validation accepts there. -/
theorem policyKey_unique_iff {level : ScopeLevel} {s : MemoryScope}
    (h : validatePolicyScope level s = .ok ()) :
    (∀ s', validatePolicyScope level s' = .ok () → s'.policyKey level = s.policyKey level →
      level.fields s'.normalized = level.fields s.normalized) ↔ s.SeparatedAt level := by
  rw [validatePolicyScope_ok_iff] at h
  simp only [validatePolicyScope_ok_iff]
  cases level with
  | global => simp [MemoryScope.SeparatedAt, ScopeLevel.fields]
  | other name => simp [MemoryScope.SeparatedAt, ScopeLevel.fields]
  | tenant =>
    refine ⟨fun _ => trivial, fun _ s' _ hkey => ?_⟩
    have : s'.normalized.tenantId = s.normalized.tenantId := by
      simpa [MemoryScope.policyKey] using hkey
    rw [ScopeLevel.fields, ScopeLevel.fields, this]
  | team =>
    rw [← policyKey_team_unique_iff (h _ (by simp [ScopeLevel.fields]))
      (h _ (by simp [ScopeLevel.fields]))]
    simp [ScopeLevel.fields]
  | cluster =>
    rw [← policyKey_cluster_unique_iff (h _ (by simp [ScopeLevel.fields]))
      (h _ (by simp [ScopeLevel.fields])) (h _ (by simp [ScopeLevel.fields]))]
    simp [ScopeLevel.fields]

/-! ### What a scope sees of the store -/

/-- A call that changes sessions or policies. -/
inductive SessionCall where
  | appendTurn (scope : MemoryScope) (userMessage assistantMessage : String) (now : ℕ → ℤ)
  | summarizeSession (scope : MemoryScope) (now : ℕ → ℤ)
  | setPolicy (level : ScopeLevel) (scope : MemoryScope) (policy : MemoryPolicy)

namespace SessionCall

/-- The store that a call leaves. -/
def step (cfg : MemoryConfig) (store : InMemoryStore) : SessionCall → InMemoryStore
  | .appendTurn scope u a now => (MonitorSystem.appendTurn cfg store scope u a now).1
  | .summarizeSession scope now => (MonitorSystem.summarizeSession cfg store scope now).1
  | .setPolicy level scope policy => (setMemoryPolicy store level scope policy).1

/-- The call is one of this scope, or sets a policy that this scope inherits. -/
def concerns (o : MemoryScope) : SessionCall → Bool
  | .appendTurn scope _ _ _ => scope.normalized = o.normalized
  | .summarizeSession scope _ => scope.normalized = o.normalized
  | .setPolicy level scope _ => level.fields scope.normalized = level.fields o.normalized

end SessionCall

/-- **What `LoadContext` reads** for a scope: its session, the policies of its levels, and
the long-term memories. -/
def viewOf (o : MemoryScope) (store : InMemoryStore) :
    Option SessionMemory × (ScopeLevel → Option MemoryPolicy) × List LongTermMemory :=
  (store.sessions o.sessionKey,
    fun level => if level ∈ policyLevels o.normalized then store.getPolicy level o else none,
    store.longTerm)

section View

variable {cfg : MemoryConfig} {o : MemoryScope} {s t : InMemoryStore}

theorem getPolicy_of_viewOf (h : viewOf o s = viewOf o t) {level : ScopeLevel}
    (hlevel : level ∈ policyLevels o.normalized) : s.getPolicy level o = t.getPolicy level o := by
  have hfun : (viewOf o s).2.1 level = (viewOf o t).2.1 level := by rw [h]
  simpa only [viewOf, if_pos hlevel] using hfun

theorem resolvePolicy_of_viewOf (cfg : MemoryConfig) (h : viewOf o s = viewOf o t) :
    resolvePolicy s.getPolicy cfg o.normalized = resolvePolicy t.getPolicy cfg o.normalized := by
  refine resolvePolicy_congr fun level hlevel => ?_
  rw [MemoryScope.normalized_normalized] at hlevel
  simpa [getPolicy] using getPolicy_of_viewOf h hlevel

theorem sessionAt_of_viewOf (h : viewOf o s = viewOf o t) (now : ℤ) :
    s.sessionAt o now = t.sessionAt o now := by
  have hsession : s.sessions o.sessionKey = t.sessions o.sessionKey := congrArg Prod.fst h
  rw [sessionAt, sessionAt, hsession]

theorem recallLongTerm_congr (h : s.longTerm = t.longTerm) (scope : MemoryScope)
    (query : String) (policy : EffectivePolicy) (env : Env) :
    recallLongTerm s scope query policy env = recallLongTerm t scope query policy env := by
  unfold recallLongTerm listLongTermMemories selected
  rw [h]

/-- **`LoadContext` depends on the view only.** -/
theorem loadContext_of_viewOf (h : viewOf o s = viewOf o t) (query : String) (env : Env) :
    loadContext cfg s o query env = loadContext cfg t o query env := by
  cases hv : validateSessionScope o with
  | error e => rw [loadContext_refused hv, loadContext_refused hv]
  | ok u =>
    have hlong : s.longTerm = t.longTerm := congrArg (·.2.2) h
    rw [loadContext_eq cfg s hv, loadContext_eq cfg t hv]
    have hcontext : contextWith cfg s o (env.now 0) = contextWith cfg t o (env.now 0) := by
      unfold contextWith
      rw [resolvePolicy_of_viewOf cfg h, sessionAt_of_viewOf h]
    have hrecalled : recalled cfg s o query env = recalled cfg t o query env := by
      unfold recalled
      simp only [resolvePolicy_of_viewOf cfg h, recallLongTerm_congr hlong]
    rw [hcontext, hrecalled]

/-- What a change of one session does to a view. -/
theorem ChangedSession.viewOf {store store' : InMemoryStore} {key : String}
    {session : SessionMemory} (h : ChangedSession store store' key session) (o : MemoryScope) :
    viewOf o store' = (Function.update store.sessions key (some session) o.sessionKey,
      (viewOf o store).2) := by
  unfold MonitorSystem.viewOf getPolicy
  rw [h.sessions, h.policies, h.longTerm]

theorem ChangedSession.viewOf_eq {store store' : InMemoryStore} {key : String}
    {session : SessionMemory} (h : ChangedSession store store' key session)
    (hne : o.sessionKey ≠ key) : MonitorSystem.viewOf o store' = MonitorSystem.viewOf o store := by
  rw [h.viewOf o, Function.update_of_ne hne]
  rfl

end View

/-! ### One call -/

section Step

variable {cfg : MemoryConfig} {o : MemoryScope} {s t : InMemoryStore}

/-- The level under whose key a policy of a level is stored. -/
def ScopeLevel.keyed : ScopeLevel → ScopeLevel
  | .other _ => .global
  | level => level

theorem policyKey_keyed (scope : MemoryScope) (level : ScopeLevel) :
    scope.policyKey level = scope.policyKey level.keyed := by
  cases level <;> rfl

/-- Policies of different levels have different keys. -/
theorem keyed_eq_of_policyKey_eq {scope scope' : MemoryScope} {level level' : ScopeLevel}
    (h : scope.policyKey level = scope'.policyKey level') : level.keyed = level'.keyed := by
  rw [← String.toList_inj] at h
  cases level <;> cases level' <;> first | rfl | (simp [MemoryScope.policyKey] at h)

theorem fields_keyed (level : ScopeLevel) (scope : MemoryScope) :
    level.keyed.fields scope = level.fields scope := by
  cases level <;> rfl

/-- **The levels that are asked for** are those whose identifiers are all there. -/
theorem mem_policyLevels {level : ScopeLevel} {scope : MemoryScope} :
    level ∈ policyLevels scope ↔
      level.keyed = level ∧ ∀ w ∈ level.fields scope, w ≠ "" := by
  cases level <;>
    simp [policyLevels, ScopeLevel.keyed, ScopeLevel.fields, List.mem_ite_nil_right]

theorem validatePolicyScope_of_mem {level : ScopeLevel} (h : level ∈ policyLevels o.normalized) :
    validatePolicyScope level o = .ok () :=
  validatePolicyScope_ok_iff.mpr (mem_policyLevels.mp h).2

/-- **A call that does not concern a separated scope does not change what it sees.** -/
theorem viewOf_step_other (h : validateSessionScope o = .ok ()) (hsep : o.Separated)
    {call : SessionCall} (hcall : call.concerns o = false) :
    viewOf o (call.step cfg s) = viewOf o s := by
  have hkeys := (sessionKey_unique_iff h).mpr hsep
  cases call with
  | appendTurn scope u a now =>
    simp only [SessionCall.concerns, decide_eq_false_iff_not] at hcall
    rw [SessionCall.step]
    cases hv : validateSessionScope scope with
    | error e => rw [appendTurn_refused hv]
    | ok _ =>
      obtain ⟨store', heq, hchanged⟩ := appendTurn_eq cfg s hv u a now
      rw [heq]
      exact hchanged.viewOf_eq fun hkey => hcall (hkeys scope hv hkey.symm)
  | summarizeSession scope now =>
    simp only [SessionCall.concerns, decide_eq_false_iff_not] at hcall
    rw [SessionCall.step]
    cases hv : validateSessionScope scope with
    | error e => rw [summarizeSession_refused hv]
    | ok _ =>
      obtain ⟨store', heq, ⟨rfl, -⟩ | ⟨session, -, hchanged⟩⟩ := summarizeSession_eq cfg s hv now
      · rw [heq]
      · rw [heq]
        exact hchanged.viewOf_eq fun hkey => hcall (hkeys scope hv hkey.symm)
  | setPolicy level scope policy =>
    simp only [SessionCall.concerns, decide_eq_false_iff_not] at hcall
    rw [SessionCall.step]
    cases hv : validatePolicyScope level scope with
    | error e => rw [setMemoryPolicy_refused hv]
    | ok _ =>
      rw [setMemoryPolicy_eq hv]
      have hpolicy : ∀ level' ∈ policyLevels o.normalized,
          (s.setPolicy level scope policy).getPolicy level' o = s.getPolicy level' o := by
        intro level' hmem
        have hne : o.policyKey level' ≠ scope.policyKey level := by
          intro hkey
          -- the key of a level belongs to that level, and there to this scope
          have hlevel := keyed_eq_of_policyKey_eq hkey
          have hkeyed := (mem_policyLevels.mp hmem).1
          rw [hkeyed] at hlevel
          rw [policyKey_keyed scope, ← hlevel] at hkey
          have hv' : validatePolicyScope level' scope = .ok () := by
            rw [validatePolicyScope_ok_iff] at hv ⊢
            rwa [hlevel, fields_keyed]
          have hfields := (policyKey_unique_iff (validatePolicyScope_of_mem hmem)).mpr
            (hsep.separatedAt level') scope hv' hkey.symm
          rw [hlevel, fields_keyed, fields_keyed] at hfields
          exact hcall hfields
        exact Function.update_of_ne hne _ _
      unfold viewOf
      refine Prod.ext rfl (Prod.ext (funext fun level' => ?_) rfl)
      by_cases hmem : level' ∈ policyLevels o.normalized
      · simp only [if_pos hmem, hpolicy level' hmem]
      · simp only [if_neg hmem]

/-- **A call that concerns the scope changes what it sees** in a way that depends on what it
sees only. -/
theorem viewOf_step_own (hview : viewOf o s = viewOf o t) {call : SessionCall}
    (hcall : call.concerns o = true) : viewOf o (call.step cfg s) = viewOf o (call.step cfg t) := by
  have hrest : (viewOf o s).2 = (viewOf o t).2 := congrArg Prod.snd hview
  cases call with
  | appendTurn scope u a now =>
    simp only [SessionCall.concerns, decide_eq_true_eq] at hcall
    rw [SessionCall.step, SessionCall.step, appendTurn_congr hcall, appendTurn_congr hcall]
    cases hv : validateSessionScope o with
    | error e =>
      rw [appendTurn_refused hv, appendTurn_refused hv]
      exact hview
    | ok _ =>
      obtain ⟨s', hs, hschanged⟩ := appendTurn_eq cfg s hv u a now
      obtain ⟨t', ht, htchanged⟩ := appendTurn_eq cfg t hv u a now
      rw [hs, ht, hschanged.viewOf o, htchanged.viewOf o, Function.update_self,
        Function.update_self, resolvePolicy_of_viewOf cfg hview, sessionAt_of_viewOf hview, hrest]
  | summarizeSession scope now =>
    simp only [SessionCall.concerns, decide_eq_true_eq] at hcall
    rw [SessionCall.step, SessionCall.step, summarizeSession_congr hcall,
      summarizeSession_congr hcall]
    cases hv : validateSessionScope o with
    | error e =>
      rw [summarizeSession_refused hv, summarizeSession_refused hv]
      exact hview
    | ok _ =>
      obtain ⟨s', hs, hscases⟩ := summarizeSession_eq cfg s hv now
      obtain ⟨t', ht, htcases⟩ := summarizeSession_eq cfg t hv now
      rw [hs, ht]
      rw [resolvePolicy_of_viewOf cfg hview, sessionAt_of_viewOf hview] at hscases
      -- the two sessions have the same summary, or none
      rcases hscases with ⟨rfl, hsnone⟩ | ⟨session, hssome, hschanged⟩ <;>
        rcases htcases with ⟨rfl, htnone⟩ | ⟨session', htsome, htchanged⟩
      · exact hview
      · exact absurd (hsnone.symm.trans htsome) (by simp)
      · exact absurd (htnone.symm.trans hssome) (by simp)
      · obtain rfl : session = session' := Option.some.inj (hssome.symm.trans htsome)
        rw [hschanged.viewOf o, htchanged.viewOf o, Function.update_self, Function.update_self,
          hrest]
  | setPolicy level scope policy =>
    rw [SessionCall.step, SessionCall.step]
    cases hv : validatePolicyScope level scope with
    | error e =>
      rw [setMemoryPolicy_refused hv, setMemoryPolicy_refused hv]
      exact hview
    | ok _ =>
      rw [setMemoryPolicy_eq hv, setMemoryPolicy_eq hv]
      have hsession : s.sessions o.sessionKey = t.sessions o.sessionKey := congrArg Prod.fst hview
      have hlong : s.longTerm = t.longTerm := congrArg (·.2.2) hview
      refine Prod.ext hsession (Prod.ext (funext fun level' => ?_) hlong)
      by_cases hmem : level' ∈ policyLevels o.normalized
      · have hold := getPolicy_of_viewOf hview hmem
        simp only [viewOf, if_pos hmem, getPolicy, setPolicy, Function.update_apply] at hold ⊢
        rw [hold]
      · simp only [viewOf, if_neg hmem]

end Step

/-! ### Every sequence of calls -/

/-- **What a separated scope sees does not depend on the calls of other scopes**, in any
sequence of calls and from any store. -/
theorem loadContext_run (cfg : MemoryConfig) {o : MemoryScope}
    (h : validateSessionScope o = .ok ()) (hsep : o.Separated) (store : InMemoryStore)
    (calls : List SessionCall) (query : String) (env : Env) :
    loadContext cfg (Unwinding.run (SessionCall.step cfg) store calls) o query env =
      loadContext cfg (Unwinding.run (SessionCall.step cfg) store
        (calls.filter fun call => call.concerns o)) o query env := by
  refine loadContext_of_viewOf (Unwinding.view_run ?_ ?_ rfl) query env
  · intro s call _ hcall
    exact viewOf_step_other h hsep hcall
  · intro s t call _ hcall hview
    exact viewOf_step_own hview hcall

/-- A store without long-term memories recalls nothing. -/
theorem recalled_quietEnv (cfg : MemoryConfig) {store : InMemoryStore} {o : MemoryScope}
    (h : validateSessionScope o = .ok ()) (hlong : store.longTerm = []) (query : String) :
    recalled cfg store o query quietEnv = .ok [] := by
  have hscope := validateMemoryScope_normalized_of_session h
  have hnone : ∀ now, recallable store o.normalized now = [] := by
    simp [recallable, selected, hlong]
  simp only [recalled, recallLongTerm_eq store hscope, hnone, quietEnv, Sorting.sort_nil,
    limited_nil, Except.map, if_true, ite_self]

theorem loadContext_quietEnv (cfg : MemoryConfig) {store : InMemoryStore} {o : MemoryScope}
    (h : validateSessionScope o = .ok ()) (hlong : store.longTerm = []) (query : String) :
    loadContext cfg store o query quietEnv = .ok (contextWith cfg store o 0 []) := by
  rw [loadContext_eq cfg store h, recalled_quietEnv cfg h hlong]
  rfl

/-- **A scope whose session key another scope has sees that scope's messages.** -/
theorem loadContext_leak (cfg : MemoryConfig) {o s' : MemoryScope}
    (h : validateSessionScope o = .ok ()) (h' : validateSessionScope s' = .ok ())
    (hkey : s'.sessionKey = o.sessionKey) (hne : s'.normalized ≠ o.normalized) :
    ∃ calls, loadContext cfg (Unwinding.run (SessionCall.step cfg) .new calls) o "" quietEnv ≠
      loadContext cfg (Unwinding.run (SessionCall.step cfg) .new
        (calls.filter fun call => call.concerns o)) o "" quietEnv := by
  refine ⟨[.appendTurn s' "x" "" fun _ => 0], ?_⟩
  obtain ⟨store', heq, hchanged⟩ := appendTurn_eq cfg .new h' "x" "" fun _ => 0
  have hfilter : [SessionCall.appendTurn s' "x" "" fun _ => 0].filter
      (fun call => call.concerns o) = [] := by
    simp [SessionCall.concerns, hne]
  have hstep : (SessionCall.appendTurn s' "x" "" fun _ => 0).step cfg .new = store' := by
    rw [SessionCall.step, heq]
  rw [hfilter, Unwinding.run_cons, Unwinding.run_nil, Unwinding.run_nil, hstep,
    loadContext_quietEnv cfg h hchanged.longTerm, loadContext_quietEnv cfg h rfl]
  intro hcon
  have hmessages := congrArg MemoryContext.recentMessages (Except.ok.inj hcon)
  -- the message of the turn, which both windows keep
  have hone : ∀ p : EffectivePolicy, p.Positive → ∀ m : Message,
      trimMessages [m] p.recentWindow = [m] := by
    intro p hp m
    have := hp.recentWindow
    exact trimMessages_of_le (by simpa using by omega)
  have hat : store'.sessionAt o 0 = turned (resolvePolicy new.getPolicy cfg s'.normalized)
      (new.sessionAt s' 0) "x" "" fun _ => 0 := by
    simp [sessionAt, hchanged.sessions, hkey]
  have hnew : ∀ s, new.sessionAt s 0 = { scope := s.normalized } := fun _ => rfl
  have hturn : turnMessages "x" "" = [⟨.user, "x"⟩] := by decide
  simp only [contextWith, hat, turned, summarizedSession_messages, appended, hnew, hturn,
    List.nil_append, hone _ (resolvePolicy_positive _ _ _)] at hmessages
  simp [trimMessages] at hmessages

/-! ### The isolation of scopes -/

/-- **When a scope is isolated.** The session key of a scope belongs to it alone exactly if
its identifiers cannot be read differently; so does its key in Redis; and exactly then what
`LoadContext` gives it does not depend on what happens in other scopes, in any sequence of
calls. A policy key of a level belongs to its identifiers alone under the same condition at
that level. -/
theorem scope_isolated_iff (cfg : MemoryConfig) {o : MemoryScope}
    (h : validateSessionScope o = .ok ()) {level : ScopeLevel} {p : MemoryScope}
    (hp : validatePolicyScope level p = .ok ()) :
    ((∀ s', validateSessionScope s' = .ok () → s'.sessionKey = o.sessionKey →
      s'.normalized = o.normalized) ↔ o.Separated) ∧
    ((∀ s', validateSessionScope s' = .ok () → redisSessionKey s' = redisSessionKey o →
      s'.normalized = o.normalized) ↔ o.Separated) ∧
    ((∀ store calls query env,
      loadContext cfg (Unwinding.run (SessionCall.step cfg) store calls) o query env =
        loadContext cfg (Unwinding.run (SessionCall.step cfg) store
          (calls.filter fun call => call.concerns o)) o query env) ↔ o.Separated) ∧
    ((∀ s', validatePolicyScope level s' = .ok () → s'.policyKey level = p.policyKey level →
      level.fields s'.normalized = level.fields p.normalized) ↔ p.SeparatedAt level) := by
  have hredis : ∀ s', redisSessionKey s' = redisSessionKey o ↔ s'.sessionKey = o.sessionKey := by
    simp [redisSessionKey]
  refine ⟨sessionKey_unique_iff h, ?_, ⟨fun hall => ?_, fun hsep store calls query env =>
    loadContext_run cfg h hsep store calls query env⟩, policyKey_unique_iff hp⟩
  · simp only [hredis]
    exact sessionKey_unique_iff h
  · refine (sessionKey_unique_iff h).mp fun s' h' hkey => by_contra fun hne => ?_
    obtain ⟨calls, hleak⟩ := loadContext_leak cfg h h' hkey hne
    exact hleak (hall _ calls _ _)

/-- A scope without a slash in its identifiers. -/
def plainScope : MemoryScope :=
  { tenantId := "acme", teamId := "sre", clusterId := "c1", sessionId := "s1" }

theorem plainScope_separated : plainScope.Separated := by
  have hnone : ∀ w ∈ ["acme", "sre", "c1", "", "s1"], ∀ y z, ¬ SlashAt w y z := by
    intro w hw
    refine solid_of_notMem ?_
    revert w
    decide
  have hnorm : plainScope.normalized = plainScope := by decide
  constructor
  all_goals
    intro y z hcut
    rw [hnorm] at hcut
    exact absurd hcut (hnone _ (by decide) y z)

theorem plainScope_isolated :
    (∀ s', validateSessionScope s' = .ok () → s'.sessionKey = plainScope.sessionKey →
      s'.normalized = plainScope.normalized) ∧
    ∀ store calls query env,
      loadContext {} (Unwinding.run (SessionCall.step {}) store calls) plainScope query env =
        loadContext {} (Unwinding.run (SessionCall.step {}) store
          (calls.filter fun call => call.concerns plainScope)) plainScope query env := by
  obtain ⟨hkey, -, hcontext, -⟩ :=
    scope_isolated_iff {} (validateSessionScope_ok_iff.mpr (by decide) :
        validateSessionScope plainScope = .ok ())
      (validatePolicyScope_ok_iff.mpr (by decide) :
        validatePolicyScope .team plainScope = .ok ())
  exact ⟨hkey.mpr plainScope_separated, hcontext.mpr plainScope_separated⟩

/-- Two scopes with one session key. -/
def slashTenant : MemoryScope :=
  { tenantId := "a/b", teamId := "c", clusterId := "d", sessionId := "s" }

/-- See `slashTenant`. -/
def slashTeam : MemoryScope :=
  { tenantId := "a", teamId := "b/c", clusterId := "d", sessionId := "s" }

/-- **Two accepted scopes of different tenants with one session key and one policy key**; the
messages of the first are seen in the second. -/
theorem slash_scopes_collide :
    (slashTenant.normalized = slashTenant ∧ slashTeam.normalized = slashTeam ∧
      validateSessionScope slashTenant = .ok () ∧ validateSessionScope slashTeam = .ok () ∧
      slashTenant.tenantId ≠ slashTeam.tenantId) ∧
    slashTenant.sessionKey = slashTeam.sessionKey ∧
    redisSessionKey slashTenant = redisSessionKey slashTeam ∧
    slashTenant.policyKey .team = slashTeam.policyKey .team ∧
    ∃ calls,
      loadContext {} (Unwinding.run (SessionCall.step {}) .new calls) slashTeam "" quietEnv ≠
        loadContext {} (Unwinding.run (SessionCall.step {}) .new
          (calls.filter fun call => call.concerns slashTeam)) slashTeam "" quietEnv := by
  have h : validateSessionScope slashTenant = .ok () :=
    validateSessionScope_ok_iff.mpr (by decide)
  have h' : validateSessionScope slashTeam = .ok () := validateSessionScope_ok_iff.mpr (by decide)
  have hkey : slashTenant.sessionKey = slashTeam.sessionKey := by decide
  exact ⟨⟨by decide, by decide, h, h', by decide⟩, hkey, by decide, by decide,
    loadContext_leak {} h' h hkey (by decide)⟩

end MonitorSystem
