import MonitorSystem.Agent.ChatHandler
import MonitorSystem.Library.Unwinding

/-!
# Whose messages a chat sees

The principal of a chat is the user with the tenant and the team of the token. A chat should
see the session messages of its own principal only, and the long-term memories of its own
team only, whatever others do in the meantime.

The handlers take the scope from the body, so this is up to the callers. It holds in every
run of chats whose bodies name the tenant and the team of their tokens and of which no two
chats of different principals have one session key (`chats_isolated`): what a chat sees
then is what it would see if the others had not chatted at all.
-/

namespace MonitorSystem

open InMemoryStore

/-! ### Principals -/

/-- The user, the tenant and the team of a token. -/
structure Principal where
  userId : ℤ
  tenantId : String
  teamId : String
  deriving DecidableEq, Repr

namespace ChatCall

/-- The principal of a chat. -/
def principal (c : ChatCall) : Principal := ⟨c.claims.userId, c.claims.tenantId, c.claims.teamId⟩

/-- The key under which the session of a chat is kept. -/
def key (c : ChatCall) : String := c.scope.sessionKey

/-- The chats have one principal. -/
def samePrincipal (c d : ChatCall) : Bool := d.principal = c.principal

/-- The chats are of one team. -/
def sameTeam (c d : ChatCall) : Bool :=
  d.claims.tenantId = c.claims.tenantId ∧ d.claims.teamId = c.claims.teamId

/-- **The body names the tenant and the team of the token.** -/
structure Faithful (c : ChatCall) : Prop where
  tenant : c.scope.tenantId = c.claims.tenantId
  team : c.scope.teamId = c.claims.teamId

/-- The store that a chat leaves. -/
def step (cfg : MemoryConfig) (toLower : Char → Char) (store : InMemoryStore) (c : ChatCall) :
    InMemoryStore :=
  (c.run cfg toLower store).store

end ChatCall

/-- Extracted memories are of the tenant and the team of the scope that they are extracted
for. -/
def Env.ExtractsInTeam (env : Env) : Prop :=
  ∀ scope messages, ∀ item ∈ env.extract scope messages,
    item.scope.normalized.tenantId = scope.normalized.tenantId ∧
      item.scope.normalized.teamId = scope.normalized.teamId

/-- **A run of chats that can be told apart**: the bodies name the tenant and the team of the
token, no two principals share a session key, the extraction keeps to the team, and the ids
it uses are new. -/
structure ToldApart (cfg : MemoryConfig) (toLower : Char → Char) (store : InMemoryStore)
    (calls : List ChatCall) : Prop where
  faithful : ∀ c ∈ calls, c.Faithful
  keys : ∀ c ∈ calls, ∀ d ∈ calls, c.principal ≠ d.principal → c.key ≠ d.key
  inTeam : ∀ c ∈ calls, c.extract.ExtractsInTeam
  fresh : Unwinding.Along (ChatCall.step cfg toLower) (fun s c => c.extract.FreshIds s) store calls

/-! ### Putting memories -/

section Put

variable {items written : List LongTermMemory} {p : LongTermMemory → Bool}

theorem mem_foldl_put {m : LongTermMemory} (h : m ∈ written.foldl put items) :
    m ∈ items ∨ m ∈ written := by
  induction written generalizing items with
  | nil => exact .inl h
  | cons w written ih =>
    rcases ih h with h | h
    · rcases mem_put.mp h with rfl | ⟨h, -⟩
      · exact .inr List.mem_cons_self
      · exact .inl h
    · exact .inr (List.mem_cons_of_mem w h)

/-- Memories of a kind are put among those of this kind. -/
theorem filter_foldl_put_own (h : ∀ w ∈ written, p w = true) :
    (written.foldl put items).filter p = written.foldl put (items.filter p) := by
  induction written generalizing items with
  | nil => rfl
  | cons w written ih =>
    obtain ⟨hw, hrest⟩ := List.forall_mem_cons.mp h
    have hput : (put items w).filter p = put (items.filter p) w := by
      rw [put, put, List.filter_cons_of_pos hw, List.filter_comm]
    rw [List.foldl_cons, List.foldl_cons, ih hrest, hput]

/-- Memories of another kind under new ids leave those of this kind as they are. -/
theorem filter_foldl_put_other (h : ∀ w ∈ written, p w = false)
    (hids : ∀ w ∈ written, ∀ m ∈ items.filter p, m.id ≠ w.id) :
    (written.foldl put items).filter p = items.filter p := by
  induction written generalizing items with
  | nil => rfl
  | cons w written ih =>
    obtain ⟨hw, hrest⟩ := List.forall_mem_cons.mp h
    obtain ⟨hwids, hrestIds⟩ := List.forall_mem_cons.mp hids
    have hput : (put items w).filter p = items.filter p := by
      rw [put, List.filter_cons_of_neg (by simp [hw]), List.filter_comm]
      exact List.filter_eq_self.mpr fun m hm => by simpa using hwids m hm
    rw [List.foldl_cons, ih hrest (by rwa [hput]), hput]

end Put

section Written

variable {cfg : MemoryConfig} {store : InMemoryStore} {scope : MemoryScope} {env : Env}

theorem mem_writtenMemories {k : ℕ} {candidates : List LongTermMemory} {m : LongTermMemory}
    (h : m ∈ writtenMemories env k candidates) :
    ∃ candidate ∈ candidates, ∃ j, m = prepared candidate (env.now j) (env.uuid j) := by
  induction candidates generalizing k with
  | nil => cases h
  | cons candidate candidates ih =>
    have hrest : ∀ {k}, m ∈ writtenMemories env k candidates →
        ∃ c ∈ candidate :: candidates, ∃ j, m = prepared c (env.now j) (env.uuid j) := fun h =>
      let ⟨c, hc, hj⟩ := ih h
      ⟨c, List.mem_cons_of_mem _ hc, hj⟩
    rw [writtenMemories] at h
    split at h
    · split at h
      · cases h
      · rcases List.mem_cons.mp h with rfl | h
        · exact ⟨candidate, List.mem_cons_self, _, rfl⟩
        · split at h
          · cases h
          · exact hrest h
    · exact hrest h

/-- **What is extracted** is prepared from a candidate. -/
theorem mem_extracted {m : LongTermMemory} (h : m ∈ extracted cfg store scope env) :
    ∃ messages, ∃ candidate ∈ env.extract scope.normalized messages,
      ∃ j, m = prepared candidate (env.now j) (env.uuid j) := by
  unfold extracted at h
  simp only at h
  split at h
  · cases h
  · exact ⟨_, mem_writtenMemories h⟩

theorem ofTeam_of_extracted (henv : env.ExtractsInTeam) {m : LongTermMemory}
    (h : m ∈ extracted cfg store scope env) :
    m.OfTeam scope.normalized.tenantId scope.normalized.teamId := by
  obtain ⟨messages, candidate, hmem, j, rfl⟩ := mem_extracted h
  have hteam := henv scope.normalized messages candidate hmem
  rwa [MemoryScope.normalized_normalized] at hteam

/-- What is extracted has an id that is new. -/
theorem id_of_extracted {s : InMemoryStore} (henv : env.FreshIds s) {m : LongTermMemory}
    (h : m ∈ extracted cfg store scope env) {other : LongTermMemory} (hother : other ∈ s.longTerm) :
    other.id ≠ m.id := by
  obtain ⟨messages, candidate, hmem, j, rfl⟩ := mem_extracted h
  have hid : (prepared candidate (env.now j) (env.uuid j)).id = env.uuid j := by
    simp [prepared, henv.candidate _ _ _ hmem]
  rw [hid]
  exact fun heq => henv.unused j ⟨other, hother, heq⟩

end Written

/-! ### What a principal and a team see -/

/-- The sessions under some keys, and the policies. -/
def sessionView (keys : List String) (s : InMemoryStore) :
    (String → Option SessionMemory) × (String → Option MemoryPolicy) :=
  (fun key => if key ∈ keys then s.sessions key else none, s.policies)

/-- The same with the long-term memories of a team. -/
def teamView (keys : List String) (tenantId teamId : String) (s : InMemoryStore) :
    ((String → Option SessionMemory) × (String → Option MemoryPolicy)) × List LongTermMemory :=
  (sessionView keys s, s.longTerm.filter fun m => m.OfTeam tenantId teamId)

section Views

variable {cfg : MemoryConfig} {toLower : Char → Char} {keys : List String}
  {s t s' t' : InMemoryStore} {c : ChatCall}

theorem sessions_of_sessionView (h : sessionView keys s = sessionView keys t) {key : String}
    (hkey : key ∈ keys) : s.sessions key = t.sessions key := by
  have hfun := congrFun (congrArg Prod.fst h) key
  simpa only [sessionView, if_pos hkey] using hfun

theorem getPolicy_of_sessionView (h : sessionView keys s = sessionView keys t) :
    s.getPolicy = t.getPolicy := by
  have hpolicies : s.policies = t.policies := congrArg Prod.snd h
  unfold getPolicy
  rw [hpolicies]

theorem sessionAt_of_sessionView (h : sessionView keys s = sessionView keys t)
    (hkey : c.key ∈ keys) (now : ℤ) : s.sessionAt c.scope now = t.sessionAt c.scope now := by
  have hsession : s.sessions c.scope.sessionKey = t.sessions c.scope.sessionKey :=
    sessions_of_sessionView h hkey
  unfold sessionAt
  rw [hsession]

/-- A changed session under one of the keys is seen. -/
theorem sessionView_congr (h : sessionView keys s = sessionView keys t) {key : String}
    {session : SessionMemory} (hs : ChangedSession s s' key session)
    (ht : ChangedSession t t' key session) : sessionView keys s' = sessionView keys t' := by
  refine Prod.ext (funext fun k => ?_) ?_
  · unfold sessionView
    simp only
    split
    · next hk =>
      rw [hs.sessions, ht.sessions, Function.update_apply, Function.update_apply,
        sessions_of_sessionView h hk]
    · rfl
  · have hpolicies : s.policies = t.policies := congrArg Prod.snd h
    simpa only [sessionView, hs.policies, ht.policies] using hpolicies

/-- One under another key is not. -/
theorem sessionView_of_notMem {key : String} {session : SessionMemory}
    (hs : ChangedSession s s' key session) (hkey : key ∉ keys) :
    sessionView keys s' = sessionView keys s := by
  refine Prod.ext (funext fun k => ?_) hs.policies
  unfold sessionView
  simp only
  split
  · next hk =>
    have hne : k ≠ key := by
      rintro rfl
      exact hkey hk
    rw [hs.sessions, Function.update_of_ne hne]
  · rfl

theorem PutMemories.sessionView_eq {items : List LongTermMemory} (h : PutMemories s s' items) :
    sessionView keys s' = sessionView keys s := by
  unfold sessionView
  rw [h.sessions, h.policies]

theorem extracted_of_sessionView (h : sessionView keys s = sessionView keys t)
    (hkey : c.key ∈ keys) :
    extracted cfg s c.scope c.extract = extracted cfg t c.scope c.extract := by
  unfold extracted
  rw [getPolicy_of_sessionView h, sessionAt_of_sessionView h hkey]

/-- **A chat under another key is not seen in the sessions.** -/
theorem sessionView_step_other (hkey : c.key ∉ keys) :
    sessionView keys (c.step cfg toLower s) = sessionView keys s := by
  unfold ChatCall.step
  rcases c.run_store cfg toLower with hsame | ⟨hv, answer, hremember⟩
  · rw [hsame]
  · obtain ⟨mid, hchanged, hput⟩ := c.remember_eq cfg s hv answer
    rw [hremember, hput.sessionView_eq, sessionView_of_notMem hchanged hkey]

/-- **What a chat does to the sessions that are seen** depends on these only, and so does what
it extracts. -/
theorem step_own (h : sessionView keys s = sessionView keys t) (hkey : c.key ∈ keys) :
    ∃ items : List LongTermMemory,
      sessionView keys (c.step cfg toLower s) = sessionView keys (c.step cfg toLower t) ∧
      (c.step cfg toLower s).longTerm = items.foldl put s.longTerm ∧
      (c.step cfg toLower t).longTerm = items.foldl put t.longTerm ∧
      ∀ m ∈ items, ∃ u, m ∈ extracted cfg u c.scope c.extract := by
  unfold ChatCall.step
  rcases c.run_store cfg toLower with hsame | ⟨hv, answer, hremember⟩
  · rw [hsame, hsame]
    exact ⟨[], h, rfl, rfl, fun _ hm => (nomatch hm)⟩
  · obtain ⟨mid, hchanged, hput⟩ := c.remember_eq cfg s hv answer
    obtain ⟨mid', hchanged', hput'⟩ := c.remember_eq cfg t hv answer
    rw [getPolicy_of_sessionView h, sessionAt_of_sessionView h hkey] at hchanged
    have hmid := sessionView_congr h hchanged hchanged'
    rw [extracted_of_sessionView hmid hkey] at hput
    rw [hremember, hremember]
    refine ⟨_, ?_, ?_, ?_, fun m hm => ⟨mid', hm⟩⟩
    · rw [hput.sessionView_eq, hput'.sessionView_eq, hmid]
    · rw [hput.longTerm, hchanged.longTerm]
    · rw [hput'.longTerm, hchanged'.longTerm]

/-- **What a chat adds to the long-term memories.** -/
theorem longTerm_step (c : ChatCall) (cfg : MemoryConfig) (toLower : Char → Char)
    (s : InMemoryStore) :
    ∃ items : List LongTermMemory, (c.step cfg toLower s).longTerm = items.foldl put s.longTerm ∧
      ∀ m ∈ items, ∃ u, m ∈ extracted cfg u c.scope c.extract := by
  obtain ⟨items, -, hs, -, hitems⟩ :=
    @step_own cfg toLower [c.key] s s c rfl List.mem_cons_self
  exact ⟨items, hs, hitems⟩

end Views

section TeamViews

variable {cfg : MemoryConfig} {toLower : Char → Char} {keys : List String}
  {tenantId teamId : String} {s t : InMemoryStore} {c : ChatCall}

/-- What a faithful chat extracts is of the team of its token. -/
theorem ofTeam_of_faithful (hc : c.Faithful) (henv : c.extract.ExtractsInTeam)
    {m : LongTermMemory} (h : m ∈ extracted cfg s c.scope c.extract) :
    m.OfTeam c.claims.tenantId c.claims.teamId := by
  have hteam := ofTeam_of_extracted henv h
  rwa [ChatCall.normalized_scope, hc.tenant, hc.team] at hteam

/-- **A chat of another team is not seen.** -/
theorem teamView_step_other (hc : c.Faithful) (henv : c.extract.ExtractsInTeam)
    (hfresh : c.extract.FreshIds s) (hkey : c.key ∉ keys)
    (hother : ¬ (c.claims.tenantId = tenantId ∧ c.claims.teamId = teamId)) :
    teamView keys tenantId teamId (c.step cfg toLower s) = teamView keys tenantId teamId s := by
  obtain ⟨items, hlong, hitems⟩ := longTerm_step c cfg toLower s
  refine Prod.ext (sessionView_step_other hkey) ?_
  unfold teamView
  rw [hlong]
  refine filter_foldl_put_other (fun m hm => ?_) fun m hm other hmem => ?_
  · obtain ⟨u, hu⟩ := hitems m hm
    obtain ⟨htenant, hteam⟩ := ofTeam_of_faithful hc henv hu
    exact decide_eq_false fun hof => hother ⟨htenant.symm.trans hof.1, hteam.symm.trans hof.2⟩
  · obtain ⟨u, hu⟩ := hitems m hm
    exact id_of_extracted hfresh hu (List.mem_of_mem_filter hmem)

/-- **What a chat of the team changes** depends on what the team sees only. -/
theorem teamView_step_own (hc : c.Faithful) (henv : c.extract.ExtractsInTeam)
    (hkey : c.key ∈ keys) (hown : c.claims.tenantId = tenantId ∧ c.claims.teamId = teamId)
    (h : teamView keys tenantId teamId s = teamView keys tenantId teamId t) :
    teamView keys tenantId teamId (c.step cfg toLower s) =
      teamView keys tenantId teamId (c.step cfg toLower t) := by
  obtain ⟨rfl, rfl⟩ := hown
  have hsession : sessionView keys s = sessionView keys t := congrArg Prod.fst h
  have hlong : s.longTerm.filter (fun m => m.OfTeam c.claims.tenantId c.claims.teamId) =
      t.longTerm.filter fun m => m.OfTeam c.claims.tenantId c.claims.teamId := congrArg Prod.snd h
  obtain ⟨items, hview, hs, ht, hitems⟩ := @step_own cfg toLower keys s t c hsession hkey
  have hteam : ∀ m ∈ items, decide (m.OfTeam c.claims.tenantId c.claims.teamId) = true := by
    intro m hm
    obtain ⟨u, hu⟩ := hitems m hm
    exact decide_eq_true (ofTeam_of_faithful hc henv hu)
  refine Prod.ext hview ?_
  unfold teamView
  rw [hs, ht, filter_foldl_put_own hteam, filter_foldl_put_own hteam, hlong]

/-- A listing for a team looks at the memories of the team only. -/
theorem recallable_of_filter {scope : MemoryScope} (hscope : validateMemoryScope scope = .ok ())
    (h : s.longTerm.filter (fun m => m.OfTeam scope.normalized.tenantId scope.normalized.teamId) =
      t.longTerm.filter fun m => m.OfTeam scope.normalized.tenantId scope.normalized.teamId)
    (now : ℤ) : recallable s scope now = recallable t scope now := by
  have hpart : ∀ u : InMemoryStore, recallable u scope now =
      (u.longTerm.filter fun m =>
        m.OfTeam scope.normalized.tenantId scope.normalized.teamId).filter fun item =>
          matchMemory { scope := scope.normalized, status := .active } item now := by
    intro u
    have hmem : ∀ item, item ∈ recallable u scope now ↔ _ := fun item =>
      mem_recallable_iff hscope
    unfold recallable selected at hmem ⊢
    rw [List.filter_filter]
    refine List.filter_congr fun item hitem => ?_
    cases hmatch : matchMemory { scope := scope.normalized, status := .active } item now with
    | false => rfl
    | true =>
      obtain ⟨-, htenant, hteam, -⟩ := (hmem item).mp (List.mem_filter.mpr ⟨hitem, hmatch⟩)
      simp [LongTermMemory.OfTeam, htenant, hteam]
  rw [hpart, hpart, h]

end TeamViews

/-! ### What a chat is given -/

section Contexts

variable {cfg : MemoryConfig} {toLower : Char → Char} {keys : List String}
  {tenantId teamId : String} {s t : InMemoryStore} {c : ChatCall}

/-- What a chat asks the index for. -/
def ChatCall.selector (c : ChatCall) (cfg : MemoryConfig) (s : InMemoryStore) : MemorySelector where
  scope := c.scope
  query := c.query
  limit := (resolvePolicy s.getPolicy cfg c.scope).recallLimit

theorem recalled_loading (h : validateSessionScope c.scope = .ok ()) :
    recalled cfg s c.scope c.query (c.loading toLower s) =
      if recallEnabled cfg s c.scope then
        ((c.index.at toLower s).search (c.selector cfg s)).map fun ids =>
          keepFound ids ((c.load.sorting.sort (recallable s c.scope (c.load.now 1))).take
            (recallLimit cfg s c.scope)) (c.load.now 2)
      else .ok [] := by
  have hscope := validateMemoryScope_of_session h
  have hlimit : limited (resolvePolicy s.getPolicy cfg c.scope).recallLimit
      (c.load.sorting.sort (recallable s c.scope (c.load.now 1))) =
        (c.load.sorting.sort (recallable s c.scope (c.load.now 1))).take
          (recallLimit cfg s c.scope) := by
    have hnormalized : limited (resolvePolicy s.getPolicy cfg c.scope.normalized).recallLimit
        (c.load.sorting.sort (recallable s c.scope (c.load.now 1))) = _ := limited_recallLimit _
    rwa [ChatCall.normalized_scope] at hnormalized
  unfold recalled recallEnabled
  simp only [ChatCall.normalized_scope, recallLongTerm_eq s hscope]
  split
  · simp only [ChatCall.loading, hlimit]
    rfl
  · rfl

theorem context_eq (h : validateSessionScope c.scope = .ok ()) :
    c.context cfg toLower s =
      match recalled cfg s c.scope c.query (c.loading toLower s) with
      | .ok longTerm => contextWith cfg s c.scope (c.load.now 0) longTerm
      | .error _ => emptyMemoryContext c.scope := by
  unfold ChatCall.context
  rw [loadContext_eq cfg s h]
  cases recalled cfg s c.scope c.query (c.loading toLower s) <;> rfl

theorem context_refused {e : String} (h : validateSessionScope c.scope = .error e) :
    c.context cfg toLower s = emptyMemoryContext c.scope := by
  unfold ChatCall.context
  rw [loadContext_refused h]

/-- Stores with the same policies are asked for the same. -/
theorem settings_of_getPolicy (c : ChatCall) (cfg : MemoryConfig)
    (h : s.getPolicy = t.getPolicy) :
    recallEnabled cfg s c.scope = recallEnabled cfg t c.scope ∧
      recallLimit cfg s c.scope = recallLimit cfg t c.scope ∧
      c.selector cfg s = c.selector cfg t := by
  unfold recallEnabled recallLimit ChatCall.selector
  rw [h]
  exact ⟨rfl, rfl, rfl⟩

theorem isOk_ok {α : Type} (a : α) : (Except.ok a : Except String α).isOk = true := rfl

theorem isOk_map {α β : Type} (f : α → β) (x : Except String α) : (x.map f).isOk = x.isOk := by
  cases x <;> rfl

/-- Whether the search succeeds does not depend on what is stored. -/
theorem isOk_search (toLower : Char → Char) (h : validateSessionScope c.scope = .ok ())
    (hsel : c.selector cfg s = c.selector cfg t) :
    ((c.index.at toLower s).search (c.selector cfg s)).isOk =
      ((c.index.at toLower t).search (c.selector cfg t)).isOk := by
  rw [hsel]
  cases c.index with
  | external index => rfl
  | store now sorting =>
    have hscope : validateMemoryScope (c.selector cfg t).scope = .ok () :=
      validateMemoryScope_of_session h
    have hs := search_eq toLower s now hscope sorting
    have ht := search_eq toLower t now hscope sorting
    simp only [ChatIndex.at, asIndex, hs, ht, isOk_ok]

theorem isOk_recalled (cfg : MemoryConfig) (toLower : Char → Char)
    (h : validateSessionScope c.scope = .ok ())
    (hpolicy : s.getPolicy = t.getPolicy) :
    (recalled cfg s c.scope c.query (c.loading toLower s)).isOk =
      (recalled cfg t c.scope c.query (c.loading toLower t)).isOk := by
  obtain ⟨hon, hlimit, hsel⟩ := settings_of_getPolicy c cfg hpolicy
  have hsearch := isOk_search toLower h hsel
  rw [recalled_loading h, recalled_loading h, hon]
  split
  · rw [isOk_map, isOk_map, hsearch]
  · rw [isOk_ok]

/-- **The history and the summary that a chat is given** are those of its own session. -/
theorem context_of_sessionView (cfg : MemoryConfig) (toLower : Char → Char)
    (h : sessionView keys s = sessionView keys t)
    (hkey : c.key ∈ keys) :
    (c.context cfg toLower s).summary = (c.context cfg toLower t).summary ∧
      (c.context cfg toLower s).recentMessages = (c.context cfg toLower t).recentMessages := by
  cases hv : validateSessionScope c.scope with
  | error e => simp only [context_refused hv, and_self]
  | ok u =>
    have hpolicy := getPolicy_of_sessionView h
    have hok := isOk_recalled cfg toLower hv hpolicy
    have hsession := sessionAt_of_sessionView h hkey (c.load.now 0)
    rw [context_eq hv, context_eq hv]
    revert hok
    generalize recalled cfg s c.scope c.query (c.loading toLower s) = found
    generalize recalled cfg t c.scope c.query (c.loading toLower t) = found'
    intro hok
    cases found with
    | error e =>
      cases found' with
      | error e' => exact ⟨rfl, rfl⟩
      | ok l' => cases hok
    | ok l =>
      cases found' with
      | error e' => cases hok
      | ok l' =>
        simp only [contextWith, hsession, hpolicy]
        exact ⟨trivial, trivial⟩

/-- **The whole context of a chat** is what its team sees. -/
theorem context_of_teamView (hc : c.Faithful) (hkey : c.key ∈ keys)
    (h : teamView keys c.claims.tenantId c.claims.teamId s =
      teamView keys c.claims.tenantId c.claims.teamId t) :
    c.context cfg toLower s = c.context cfg toLower t := by
  cases hv : validateSessionScope c.scope with
  | error e => rw [context_refused hv, context_refused hv]
  | ok u =>
    have hscope := validateMemoryScope_of_session hv
    have hview : sessionView keys s = sessionView keys t := congrArg Prod.fst h
    have hlong : s.longTerm.filter (fun m => m.OfTeam c.claims.tenantId c.claims.teamId) =
        t.longTerm.filter fun m => m.OfTeam c.claims.tenantId c.claims.teamId :=
      congrArg Prod.snd h
    rw [← hc.tenant, ← hc.team, ← c.normalized_scope] at hlong
    have hrecallable := recallable_of_filter hscope hlong
    have hpolicy := getPolicy_of_sessionView hview
    obtain ⟨hon, hlimit, hsel⟩ := settings_of_getPolicy c cfg hpolicy
    have hsearch : (c.index.at toLower s).search (c.selector cfg s) =
        (c.index.at toLower t).search (c.selector cfg t) := by
      rw [hsel]
      cases c.index with
      | external index => rfl
      | store now sorting =>
        have hscope' : validateMemoryScope (c.selector cfg t).scope = .ok () := hscope
        have hrec : recallable s (c.selector cfg t).scope now =
          recallable t (c.selector cfg t).scope now := hrecallable now
        simp only [ChatIndex.at, asIndex, search_eq toLower s now hscope' sorting,
          search_eq toLower t now hscope' sorting, hrec]
    have hcontext : ∀ l, contextWith cfg s c.scope (c.load.now 0) l =
        contextWith cfg t c.scope (c.load.now 0) l := by
      intro l
      unfold contextWith
      rw [hpolicy, sessionAt_of_sessionView hview hkey]
    rw [context_eq hv, context_eq hv, recalled_loading hv, recalled_loading hv, hon, hlimit,
      hsearch, hrecallable]
    simp only [hcontext]

/-- **The long-term memories that a faithful chat is given** are of the team of its token. -/
theorem ofTeam_of_context (hc : c.Faithful) {m : LongTermMemory}
    (hm : m ∈ (c.context cfg toLower s).longTerm) :
    m.OfTeam c.claims.tenantId c.claims.teamId := by
  unfold ChatCall.context at hm
  split at hm
  · next ctx hload =>
    have hv := validateSessionScope_of_loadContext hload
    obtain ⟨item, hitem, hitem'⟩ := mem_longTerm_of_loadContext hload hm
    have hm' : m.scope = item.scope := by rcases hitem' with rfl | rfl <;> rfl
    obtain ⟨-, htenant, hteam, -⟩ := (mem_recalled_iff hv).mp hitem
    rw [ChatCall.normalized_scope] at htenant hteam
    rw [LongTermMemory.OfTeam, hm']
    exact ⟨htenant.trans hc.tenant, hteam.trans hc.team⟩
  · cases hm

end Contexts

/-! ### Runs of chats -/

/-- **A chat that comes after others belongs to its caller.** The memories that it is given
and those that it adds are of the team of its token; its summary and its history are what
they would be if only its own principal had chatted, and so is the session that it leaves;
and its long-term memories are what they would be if only its own team had chatted. -/
structure OwnChat (cfg : MemoryConfig) (toLower : Char → Char) (store : InMemoryStore)
    (before : List ChatCall) (c : ChatCall) : Prop where
  recalled : ∀ m ∈ (c.context cfg toLower
      (Unwinding.run (ChatCall.step cfg toLower) store before)).longTerm,
    m.OfTeam c.claims.tenantId c.claims.teamId
  created : ∀ m ∈ (c.step cfg toLower
      (Unwinding.run (ChatCall.step cfg toLower) store before)).longTerm,
    m ∈ (Unwinding.run (ChatCall.step cfg toLower) store before).longTerm ∨
      m.OfTeam c.claims.tenantId c.claims.teamId
  summary : (c.context cfg toLower
      (Unwinding.run (ChatCall.step cfg toLower) store before)).summary =
    (c.context cfg toLower (Unwinding.run (ChatCall.step cfg toLower) store
      (before.filter c.samePrincipal))).summary
  history : (c.context cfg toLower
      (Unwinding.run (ChatCall.step cfg toLower) store before)).recentMessages =
    (c.context cfg toLower (Unwinding.run (ChatCall.step cfg toLower) store
      (before.filter c.samePrincipal))).recentMessages
  session : (c.step cfg toLower
      (Unwinding.run (ChatCall.step cfg toLower) store before)).sessions c.key =
    (c.step cfg toLower (Unwinding.run (ChatCall.step cfg toLower) store
      (before.filter c.samePrincipal))).sessions c.key
  longTerm : (c.context cfg toLower
      (Unwinding.run (ChatCall.step cfg toLower) store before)).longTerm =
    (c.context cfg toLower (Unwinding.run (ChatCall.step cfg toLower) store
      (before.filter c.sameTeam))).longTerm

section Runs

variable {cfg : MemoryConfig} {toLower : Char → Char} {store : InMemoryStore}
  {calls before after : List ChatCall} {c d : ChatCall}

/-- The keys of the chats of a kind. -/
def keysOf (calls : List ChatCall) (p : ChatCall → Bool) : List String :=
  (calls.filter p).map ChatCall.key

theorem key_mem_keysOf {p : ChatCall → Bool} (hd : d ∈ calls) (hp : p d = true) :
    d.key ∈ keysOf calls p :=
  List.mem_map.mpr ⟨d, List.mem_filter.mpr ⟨hd, hp⟩, rfl⟩

/-- A chat of none of the principals has none of the keys. -/
theorem ToldApart.key_notMem (h : ToldApart cfg toLower store calls) {p : ChatCall → Bool}
    (hp : ∀ e, p e = true → d.principal ≠ e.principal) (hd : d ∈ calls) :
    d.key ∉ keysOf calls p := by
  intro hmem
  obtain ⟨e, he, hkey⟩ := List.mem_map.mp hmem
  obtain ⟨he, hpe⟩ := List.mem_filter.mp he
  exact h.keys d hd e he (hp e hpe) hkey.symm

theorem sessionView_run (h : ToldApart cfg toLower store calls) (c : ChatCall)
    (hbefore : ∀ d ∈ before, d ∈ calls) :
    sessionView (keysOf calls c.samePrincipal)
        (Unwinding.run (ChatCall.step cfg toLower) store before) =
      sessionView (keysOf calls c.samePrincipal)
        (Unwinding.run (ChatCall.step cfg toLower) store (before.filter c.samePrincipal)) := by
  refine Unwinding.view_run (fun s d hd hother => sessionView_step_other ?_)
    (fun s t d hd hown hview => ?_) rfl
  · refine h.key_notMem (fun e he heq => ?_) (hbefore d hd)
    have he' : e.principal = c.principal := of_decide_eq_true he
    exact absurd (heq.trans he') (of_decide_eq_false hother)
  · obtain ⟨-, hstep, -⟩ := @step_own cfg toLower _ s t d hview (key_mem_keysOf (hbefore d hd) hown)
    exact hstep

theorem teamView_run (h : ToldApart cfg toLower store calls) (c : ChatCall)
    (hbefore : ∀ d ∈ before, d ∈ calls)
    (hfresh : Unwinding.Along (ChatCall.step cfg toLower) (fun s d => d.extract.FreshIds s) store
      before) :
    teamView (keysOf calls c.sameTeam) c.claims.tenantId c.claims.teamId
        (Unwinding.run (ChatCall.step cfg toLower) store before) =
      teamView (keysOf calls c.sameTeam) c.claims.tenantId c.claims.teamId
        (Unwinding.run (ChatCall.step cfg toLower) store (before.filter c.sameTeam)) := by
  refine Unwinding.view_run_along (fun s d hd hids hother => ?_) (fun s t d hd hown hview => ?_)
    hfresh rfl
  · have hother' := of_decide_eq_false hother
    refine teamView_step_other (h.faithful d (hbefore d hd)) (h.inTeam d (hbefore d hd)) hids
      (h.key_notMem (fun e he heq => hother' ?_) (hbefore d hd)) hother'
    obtain ⟨htenant, hteam⟩ : e.claims.tenantId = c.claims.tenantId ∧
      e.claims.teamId = c.claims.teamId := of_decide_eq_true he
    exact ⟨(congrArg Principal.tenantId heq).trans htenant,
      (congrArg Principal.teamId heq).trans hteam⟩
  · exact teamView_step_own (h.faithful d (hbefore d hd)) (h.inTeam d (hbefore d hd))
      (key_mem_keysOf (hbefore d hd) hown) (of_decide_eq_true hown) hview

end Runs

/-- **In a run of chats that can be told apart, every chat belongs to its caller.** -/
theorem chats_isolated (cfg : MemoryConfig) (toLower : Char → Char) (store : InMemoryStore)
    (calls : List ChatCall) (h : ToldApart cfg toLower store calls) :
    ∀ before c after, calls = before ++ c :: after → OwnChat cfg toLower store before c := by
  rintro before c after hcalls
  have hc : c ∈ calls := by simp [hcalls]
  have hbefore : ∀ d ∈ before, d ∈ calls := fun d hd => by simp [hcalls, hd]
  have hfresh := h.fresh
  rw [hcalls, Unwinding.along_append] at hfresh
  have hsession := sessionView_run h c hbefore
  have hteam := teamView_run h c hbefore hfresh.1
  have hkey : c.key ∈ keysOf calls c.samePrincipal :=
    key_mem_keysOf hc (decide_eq_true rfl)
  have hcontext := context_of_sessionView cfg toLower hsession hkey
  constructor
  · exact fun m hm => ofTeam_of_context (h.faithful c hc) hm
  · intro m hm
    obtain ⟨items, hlong, hitems⟩ := longTerm_step c cfg toLower
      (Unwinding.run (ChatCall.step cfg toLower) store before)
    rw [hlong] at hm
    rcases mem_foldl_put hm with hm | hm
    · exact .inl hm
    · obtain ⟨u, hu⟩ := hitems m hm
      exact .inr (ofTeam_of_faithful (h.faithful c hc) (h.inTeam c hc) hu)
  · exact hcontext.1
  · exact hcontext.2
  · obtain ⟨-, hstep, -⟩ := @step_own cfg toLower _ _ _ c hsession hkey
    exact sessions_of_sessionView hstep hkey
  · have hkey' : c.key ∈ keysOf calls c.sameTeam :=
      key_mem_keysOf hc (decide_eq_true ⟨rfl, rfl⟩)
    rw [context_of_teamView (h.faithful c hc) hkey' hteam]

/-- A chat of a user of one team. -/
def chatOf (userId : ℤ) (username id question : String) : ChatCall where
  claims := ⟨userId, username, .user, "acme", "sre"⟩
  body := { id, tenantId := "acme", teamId := "sre", question }
  kind := .chat (.answered "ok")
  index := .store 0 .merge
  load := quietEnv
  append _ := 0
  extract := quietEnv

theorem quietEnv_extractsInTeam : quietEnv.ExtractsInTeam := fun _ _ _ h => (nomatch h)

theorem quietEnv_freshIds_of_nil {s : InMemoryStore} (h : s.longTerm = []) :
    quietEnv.FreshIds s := by
  refine ⟨fun _ _ c hc => (nomatch hc), fun i j hij => ?_, fun k => ?_⟩
  · have := congrArg (fun s : String => s.toList.length) hij
    simpa [quietEnv] using this
  · rintro ⟨item, hitem, -⟩
    rw [h] at hitem
    cases hitem

/-- A chat that extracts nothing adds no long-term memory. -/
theorem longTerm_step_chatOf (userId : ℤ) (username id question : String) (cfg : MemoryConfig)
    (toLower : Char → Char) (s : InMemoryStore) :
    ((chatOf userId username id question).step cfg toLower s).longTerm = s.longTerm := by
  obtain ⟨items, hlong, hitems⟩ := longTerm_step (chatOf userId username id question) cfg toLower s
  rw [hlong]
  obtain rfl : items = [] := by
    refine List.eq_nil_iff_forall_not_mem.mpr fun m hm => ?_
    obtain ⟨u, hu⟩ := hitems m hm
    obtain ⟨_, candidate, hcandidate, -⟩ := mem_extracted hu
    cases hcandidate
  rfl

theorem fresh_chatOf {s : InMemoryStore} (h : s.longTerm = []) (u₁ u₂ : ℤ)
    (n₁ n₂ id₁ id₂ q₁ q₂ : String) :
    Unwinding.Along (ChatCall.step {} Char.toLower) (fun s c => c.extract.FreshIds s) s
      [chatOf u₁ n₁ id₁ q₁, chatOf u₂ n₂ id₂ q₂] :=
  ⟨quietEnv_freshIds_of_nil h,
    quietEnv_freshIds_of_nil ((longTerm_step_chatOf u₁ n₁ id₁ q₁ {} _ s).trans h), trivial⟩

/-- Two users with sessions of their own. -/
def twoSessions : List ChatCall := [chatOf 1 "alice" "1" "hello", chatOf 2 "bob" "2" "hi"]

theorem twoSessions_isolated :
    OwnChat {} Char.toLower .new [chatOf 1 "alice" "1" "hello"] (chatOf 2 "bob" "2" "hi") := by
  refine chats_isolated {} Char.toLower .new twoSessions ⟨?_, ?_, ?_, ?_⟩ _ _ [] rfl
  · intro c hc
    have : ∀ c ∈ twoSessions, c.scope.tenantId = c.claims.tenantId ∧
        c.scope.teamId = c.claims.teamId := by decide
    exact ⟨(this c hc).1, (this c hc).2⟩
  · decide
  · intro c hc
    obtain rfl | rfl : c = chatOf 1 "alice" "1" "hello" ∨ c = chatOf 2 "bob" "2" "hi" := by
      simpa [twoSessions] using hc
    all_goals exact quietEnv_extractsInTeam
  · exact fresh_chatOf rfl 1 2 _ _ _ _ _ _

/-- **Two users of one team with one session id share a session**: the second is given the
messages of the first. -/
theorem same_session_id_shared :
    ¬ ∀ cfg toLower store calls, (∀ c ∈ calls, c.extract.ExtractsInTeam) →
      Unwinding.Along (ChatCall.step cfg toLower) (fun s c => c.extract.FreshIds s) store calls →
      ∀ before c after, calls = before ++ c :: after → OwnChat cfg toLower store before c := by
  intro hall
  have hown := hall {} Char.toLower .new [chatOf 1 "alice" "1" "hello", chatOf 2 "bob" "1" "hi"]
    (by
      intro c hc
      obtain rfl | rfl : c = chatOf 1 "alice" "1" "hello" ∨ c = chatOf 2 "bob" "1" "hi" := by
        simpa using hc
      all_goals exact quietEnv_extractsInTeam)
    (fresh_chatOf rfl 1 2 _ _ _ _ _ _) [chatOf 1 "alice" "1" "hello"] (chatOf 2 "bob" "1" "hi") []
    rfl
  have hhistory := hown.history
  revert hhistory
  decide

end MonitorSystem
