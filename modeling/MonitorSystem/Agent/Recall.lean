import MonitorSystem.Agent.Sessions
import MonitorSystem.Library.Shortlist

/-!
# What a recall returns

`LoadContext` asks the index for ids, lists the active memories of the scope, and keeps the
listed memories whose ids it was given; if it was given none, it keeps them all.

The listing takes the identifiers of the scope as optional selectors, so a scope without a
cluster selects the memories of every cluster of its team (`recall_exact_iff`). With the
store as its own index both the search and the listing look at the first `RecallLimit`
memories only, in an order that does not look at the query. Whether the result is what was
asked for is then a matter of recency, and `recall_complete_iff` says when it is.
-/

namespace MonitorSystem

open InMemoryStore Paging

variable {cfg : MemoryConfig} {store : InMemoryStore} {scope : MemoryScope} {query : String}
  {now : ℤ}

/-! ### Exact scopes -/

/-- **The memory is one of exactly this scope**: without a cluster if the scope has none. -/
def LongTermMemory.InScope (item : LongTermMemory) (scope : MemoryScope) : Prop :=
  item.scope.tenantId = scope.normalized.tenantId ∧ item.scope.teamId = scope.normalized.teamId ∧
    item.scope.clusterId = scope.normalized.clusterId

instance LongTermMemory.decidableInScope (item : LongTermMemory) (scope : MemoryScope) :
    Decidable (item.InScope scope) :=
  inferInstanceAs (Decidable (item.scope.tenantId = scope.normalized.tenantId ∧
    item.scope.teamId = scope.normalized.teamId ∧
    item.scope.clusterId = scope.normalized.clusterId))

/-- Whether the policy of a scope lets memories be recalled. -/
def recallEnabled (cfg : MemoryConfig) (store : InMemoryStore) (scope : MemoryScope) : Bool :=
  let policy := resolvePolicy store.getPolicy cfg scope.normalized
  policy.longTermEnabled && policy.recallEnabled

/-- How many memories a recall returns at most. -/
def recallLimit (cfg : MemoryConfig) (store : InMemoryStore) (scope : MemoryScope) : ℕ :=
  (resolvePolicy store.getPolicy cfg scope.normalized).recallLimit.toNat

theorem recallLimit_pos (cfg : MemoryConfig) (store : InMemoryStore) (scope : MemoryScope) :
    0 < recallLimit cfg store scope := by
  have := (resolvePolicy_positive store.getPolicy cfg scope.normalized).recallLimit
  unfold recallLimit
  omega

theorem limited_recallLimit {α : Type} (l : List α) :
    limited (resolvePolicy store.getPolicy cfg scope.normalized).recallLimit l =
      l.take (recallLimit cfg store scope) :=
  if_pos (resolvePolicy_positive store.getPolicy cfg scope.normalized).recallLimit

/-- The memories that a search finds are kept, or all if it finds none. -/
def keepFound (ids : List String) (items : List LongTermMemory) (now : ℤ) : List LongTermMemory :=
  if ids = [] then items
  else (items.filter fun item => item.id ∈ ids).map fun item =>
    { item with lastUsedAt := some now }

@[simp] theorem keepFound_nil (items : List LongTermMemory) (now : ℤ) :
    keepFound [] items now = items := if_pos rfl

/-- **The memories of a context**, where recall is enabled and the search succeeds. -/
theorem loadContext_found (query : String) (h : validateSessionScope scope = .ok ())
    (hon : recallEnabled cfg store scope = true) {env : Env} {ids : List String}
    (hsearch : env.index.search { scope := scope.normalized, query
                                  limit := (resolvePolicy store.getPolicy cfg
                                    scope.normalized).recallLimit } = .ok ids) :
    loadContext cfg store scope query env =
      .ok (contextWith cfg store scope (env.now 0) (keepFound ids
        ((env.sorting.sort (recallable store scope.normalized (env.now 1))).take
          (recallLimit cfg store scope)) (env.now 2))) := by
  have hscope := validateMemoryScope_normalized_of_session h
  unfold recallEnabled at hon
  simp only at hon
  rw [loadContext_eq cfg store h, recalled]
  simp only [hon, if_true]
  rw [recallLongTerm_eq store hscope, limited_recallLimit, hsearch]
  rfl

@[simp] theorem contextWith_longTerm (now : ℤ) (longTerm : List LongTermMemory) :
    (contextWith cfg store scope now longTerm).longTerm = longTerm := rfl

theorem loadContext_disabled (h : validateSessionScope scope = .ok ())
    (hoff : recallEnabled cfg store scope = false) (env : Env) :
    loadContext cfg store scope query env =
      .ok (contextWith cfg store scope (env.now 0) []) := by
  unfold recallEnabled at hoff
  simp only at hoff
  rw [loadContext_eq cfg store h, recalled]
  simp only [hoff, Bool.false_eq_true, if_false]
  rfl

theorem validateSessionScope_of_loadContext {env : Env} {ctx : MemoryContext}
    (h : loadContext cfg store scope query env = .ok ctx) :
    validateSessionScope scope = .ok () := by
  rcases hv : validateSessionScope scope with e | u
  · rw [loadContext_refused hv] at h
    cases h
  · rfl

/-- What is listed for the scope of a session. -/
theorem mem_recalled_iff (h : validateSessionScope scope = .ok ()) {item : LongTermMemory} :
    item ∈ recallable store scope.normalized now ↔ item ∈ store.longTerm ∧
      item.scope.tenantId = scope.normalized.tenantId ∧
      item.scope.teamId = scope.normalized.teamId ∧
      (scope.normalized.clusterId = "" ∨ item.scope.clusterId = scope.normalized.clusterId) ∧
      item.status = .active ∧ ¬ item.ExpiredAt now := by
  have hscope := validateMemoryScope_normalized_of_session h
  rw [mem_recallable_iff hscope, MemoryScope.normalized_normalized]

/-- **A memory of a cluster comes first**, wherever there is one. -/
theorem exists_clustered_take {items : List LongTermMemory} (sorting : Sorting) {n : ℕ}
    (hn : 0 < n) {item : LongTermMemory} (hitem : item ∈ items)
    (hcluster : item.scope.clusterId ≠ "") :
    ∃ m ∈ (sorting.sort items).take n, m.scope.clusterId ≠ "" := by
  have hmem : item ∈ sorting.sort items := by simpa using hitem
  have hsorted := (sorting.listing items).sorted
  cases hsort : sorting.sort items with
  | nil =>
    rw [hsort] at hmem
    cases hmem
  | cons m rest =>
    rw [hsort] at hmem hsorted
    refine ⟨m, by cases n <;> simp_all, fun hm => ?_⟩
    rcases List.mem_cons.mp hmem with rfl | hrest
    · exact hcluster hm
    · exact (List.pairwise_cons.mp hsorted).1 item hrest (.inl ⟨hcluster, hm⟩)

/-- **When a recall is exact.** For a scope, a query and a time, and for all answers of the
index and all orders of the listing: the memories that `LoadContext` returns are those of
exactly this scope if and only if the scope is refused, or recall is off, or the scope names
a cluster, or no active unexpired memory of the team is one of a cluster. -/
theorem recall_exact_iff (cfg : MemoryConfig) (store : InMemoryStore) (scope : MemoryScope)
    (query : String) (now : ℤ) :
    (∀ env ctx, env.now 1 = now → loadContext cfg store scope query env = .ok ctx →
      ∀ m ∈ ctx.longTerm, m.InScope scope) ↔
      validateSessionScope scope ≠ .ok () ∨ recallEnabled cfg store scope = false ∨
        scope.normalized.clusterId ≠ "" ∨
        ∀ item ∈ store.longTerm, item.scope.tenantId = scope.normalized.tenantId →
          item.scope.teamId = scope.normalized.teamId → item.status = .active →
          ¬ item.ExpiredAt now → item.scope.clusterId = "" := by
  constructor
  · intro hexact
    by_contra! hcon
    obtain ⟨hv, hon, hcluster, item, hitem, htenant, hteam, hactive, hexpired, hother⟩ := hcon
    -- an index that finds nothing, and a clock that stands still
    obtain ⟨env, hsearch, hnow⟩ : ∃ env : Env,
        (∀ selector, env.index.search selector = .ok []) ∧ ∀ k, env.now k = now :=
      ⟨{ quietEnv with now := fun _ => now }, fun _ => rfl, fun _ => rfl⟩
    have hmem : item ∈ recallable store scope.normalized now :=
      (mem_recalled_iff hv).mpr ⟨hitem, htenant, hteam, .inl hcluster, hactive, hexpired⟩
    obtain ⟨m, hm, hmcluster⟩ :=
      exists_clustered_take env.sorting (recallLimit_pos cfg store scope) hmem hother
    have hload := loadContext_found query hv (by simpa using hon) (hsearch _)
    rw [keepFound_nil, hnow, hnow] at hload
    have hin := hexact env _ (hnow 1) hload m (by rwa [contextWith_longTerm])
    exact hmcluster (hin.2.2.trans hcluster)
  · rintro hcase env ctx rfl hload m hm
    have hv := validateSessionScope_of_loadContext hload
    obtain ⟨item, hitem, hitem'⟩ := mem_longTerm_of_loadContext hload hm
    have hm' : m.scope = item.scope := by rcases hitem' with rfl | rfl <;> rfl
    obtain ⟨hmem, htenant, hteam, hsel, hactive, hexpired⟩ := (mem_recalled_iff hv).mp hitem
    rw [LongTermMemory.InScope, hm']
    refine ⟨htenant, hteam, ?_⟩
    rcases hcase with hrefused | hoff | hcluster | hall
    · exact absurd hv hrefused
    · rw [loadContext_disabled hv hoff] at hload
      obtain rfl := Except.ok.inj hload
      cases hm
    · exact hsel.resolve_left hcluster
    · rcases hsel with hcluster | hsame
      · rw [hcluster]
        exact hall item hmem htenant hteam hactive hexpired
      · exact hsame

/-- A store with one memory, of the cluster `prod`. -/
def oneNote : InMemoryStore where
  sessions _ := none
  policies _ := none
  longTerm := [{
    id := "m1", scope := { tenantId := "acme", teamId := "sre", clusterId := "prod" }
    content := "disk full", status := .active }]
  events := []
  sessions_stored := InMemoryStore.new.sessions_stored
  longTerm_nodup := List.nodup_singleton _

/-- A configuration with recall enabled. -/
def recalling : MemoryConfig := { longTermEnabled := true, recallEnabled := true }

/-- A session of a cluster, or of the team if there is none. -/
def sessionOf (clusterId : String) : MemoryScope :=
  { tenantId := "acme", teamId := "sre", clusterId, sessionId := "1" }

/-- Where the search finds nothing, the note is in the context. -/
theorem loadContext_oneNote (clusterId query : String) (env : Env)
    (h : validateSessionScope (sessionOf clusterId) = .ok ())
    (hon : recallEnabled recalling oneNote (sessionOf clusterId) = true)
    (hlisted : recallable oneNote (sessionOf clusterId).normalized 0 = oneNote.longTerm)
    (hnow : ∀ k, env.now k = 0)
    (hsearch : env.index.search { scope := (sessionOf clusterId).normalized, query
                                  limit := (resolvePolicy oneNote.getPolicy recalling
                                    (sessionOf clusterId).normalized).recallLimit } = .ok []) :
    ∃ ctx, loadContext recalling oneNote (sessionOf clusterId) query env = .ok ctx ∧
      ctx.longTerm = oneNote.longTerm := by
  refine ⟨_, loadContext_found query h hon hsearch, ?_⟩
  rw [keepFound_nil, contextWith_longTerm, hnow, hlisted]
  have hsort : env.sorting.sort oneNote.longTerm = oneNote.longTerm :=
    List.perm_singleton.mp (env.sorting.listing _).perm
  rw [hsort, List.take_of_length_le (recallLimit_pos recalling oneNote (sessionOf clusterId))]

/-- **A session without a cluster is given the memories of all clusters.** -/
theorem recall_of_every_cluster :
    ¬ ∀ cfg store scope query env ctx, loadContext cfg store scope query env = .ok ctx →
      ∀ m ∈ ctx.longTerm, m.InScope scope := by
  intro hall
  obtain ⟨ctx, hload, hctx⟩ := loadContext_oneNote "" "disk" quietEnv (by decide) (by decide)
    (by decide) (fun _ => rfl) rfl
  have hin := hall _ _ _ _ _ ctx hload _ (by rw [hctx]; exact List.mem_cons_self)
  exact absurd hin (by decide)

/-! ### Recall through the store itself -/

/-- **A query matches a content**: it is part of it, or a word of at least two characters of
it is, in upper or lower case. -/
def QueryMatches (toLower : Char → Char) (query content : String) : Prop :=
  (lowerText toLower (trimSpace query)).toList <:+: (lowerText toLower content).toList ∨
    ∃ token ∈ fields (lowerText toLower (trimSpace query)), 2 ≤ (trimSpace token).toList.length ∧
      (trimSpace token).toList <:+: (lowerText toLower content).toList

instance decidableQueryMatches (toLower : Char → Char) (query content : String) :
    Decidable (QueryMatches toLower query content) :=
  inferInstanceAs (Decidable (_ ∨ _))

theorem matchesQuery_iff {toLower : Char → Char} {content : String} :
    matchesQuery toLower query content = true ↔ QueryMatches toLower query content := by
  unfold matchesQuery QueryMatches hasSharedToken containsText
  generalize lowerText toLower (trimSpace query) = q
  generalize lowerText toLower content = c
  simp only [Bool.or_eq_true, decide_eq_true_eq, List.any_eq_true, Bool.and_eq_true,
    Bool.not_eq_true', decide_eq_false_iff_not, not_lt, or_assoc]
  constructor
  · rintro (rfl | h)
    · exact .inl (by simp)
    · exact h
  · exact .inr

/-- **A memory that a recall should return.** -/
def LongTermMemory.Wanted (toLower : Char → Char) (scope : MemoryScope) (query : String) (now : ℤ)
    (item : LongTermMemory) : Prop :=
  item.status = .active ∧ ¬ item.ExpiredAt now ∧ item.InScope scope ∧
    QueryMatches toLower query item.content

instance LongTermMemory.decidableWanted (toLower : Char → Char) (scope : MemoryScope)
    (query : String) (now : ℤ) (item : LongTermMemory) :
    Decidable (item.Wanted toLower scope query now) :=
  inferInstanceAs (Decidable (_ ∧ _))

/-- **What a recall should return**: distinct memories of the store that are wanted, and as
many as there are or as may be returned. -/
structure Delivered (toLower : Char → Char) (store : InMemoryStore) (scope : MemoryScope)
    (query : String) (now : ℤ) (limit : ℕ) (longTerm : List LongTermMemory) : Prop where
  sound : ∀ m ∈ longTerm, ∃ item ∈ store.longTerm, item.Wanted toLower scope query now ∧
    m = { item with lastUsedAt := m.lastUsedAt }
  nodup : (longTerm.map (·.id)).Nodup
  length : longTerm.length =
    min limit (store.longTerm.filter fun item => item.Wanted toLower scope query now).length

/-- No memory of the store expires between two times. -/
def Steady (store : InMemoryStore) (now t : ℤ) : Prop :=
  ∀ item ∈ store.longTerm, item.ExpiredAt t ↔ item.ExpiredAt now

/-- **A call with the store as its own index.** The index and the manager read the clock
each for themselves, and no memory expires in between; the orders of their listings have
nothing to do with each other. -/
structure SelfIndexed (toLower : Char → Char) (store : InMemoryStore) (now : ℤ) (env : Env) :
    Prop where
  index : ∃ t sorting, Steady store now t ∧ env.index = store.asIndex toLower t sorting
  steady : Steady store now (env.now 1)

section SelfIndexed

variable {toLower : Char → Char} {n : ℕ} {t : ℤ}

theorem Steady.recallable_eq (h : Steady store now t) :
    recallable store scope t = recallable store scope now := by
  unfold recallable selected
  refine List.filter_congr fun item hitem => ?_
  have := h item hitem
  unfold LongTermMemory.ExpiredAt at this
  simp only [matchMemory, this]

/-- **What a search yields**, for a scope that the validation accepts. -/
theorem search_eq (toLower : Char → Char) (store : InMemoryStore) (t : ℤ)
    {selector : MemorySelector} (h : validateMemoryScope selector.scope = .ok ())
    (sorting : Sorting) :
    store.search toLower selector t sorting =
      .ok (limited selector.limit (((limited selector.limit
        (sorting.sort (recallable store selector.scope t))).filter fun item =>
          matchesQuery toLower selector.query item.content).map (·.id))) := by
  unfold search
  rw [listLongTermMemories_eq, selected_limit]
  · rfl
  · exact h

/-- The ids that the store finds for a recall. -/
theorem asIndex_search (cfg : MemoryConfig) (store : InMemoryStore) (query : String)
    (toLower : Char → Char) (t : ℤ) (h : validateSessionScope scope = .ok ()) (sorting : Sorting) :
    (store.asIndex toLower t sorting).search
        { scope := scope.normalized, query
          limit := (resolvePolicy store.getPolicy cfg scope.normalized).recallLimit } =
      .ok ((((sorting.sort (recallable store scope.normalized t)).take
        (recallLimit cfg store scope)).filter fun item =>
          matchesQuery toLower query item.content).map (·.id)) := by
  have hscope := validateMemoryScope_normalized_of_session h
  have hsearch := search_eq toLower store t
    (show validateMemoryScope (MemorySelector.scope
      { scope := scope.normalized, query
        limit := (resolvePolicy store.getPolicy cfg scope.normalized).recallLimit }) = .ok ()
      from hscope) sorting
  simp only [limited_recallLimit] at hsearch
  refine hsearch.trans (congrArg Except.ok (List.take_of_length_le ?_))
  -- what is found is no more than what is looked at
  rw [List.length_map]
  exact (List.length_filter_le _ _).trans (List.length_take_le _ _)

/-- The memories found, by their ids, are those found. -/
theorem filter_mem_map_id (store : InMemoryStore) {found items : List LongTermMemory}
    (hfound : ∀ x ∈ found, x ∈ store.longTerm) (hitems : ∀ x ∈ items, x ∈ store.longTerm) :
    (items.filter fun item => item.id ∈ found.map (·.id)) =
      items.filter fun item => item ∈ found := by
  refine List.filter_congr fun x hx => ?_
  have hiff : x.id ∈ found.map (·.id) ↔ x ∈ found := by
    constructor
    · rintro hid
      obtain ⟨y, hy, heq⟩ := List.mem_map.mp hid
      exact eq_of_id_eq (hfound y hy) (hitems x hx) heq ▸ hy
    · exact fun hmem => List.mem_map.mpr ⟨x, hmem, rfl⟩
  simp only [hiff]

/-- **What a recall through the store picks.** -/
theorem loadContext_pick (query : String) (h : validateSessionScope scope = .ok ())
    (hon : recallEnabled cfg store scope = true) {env : Env} {sorting : Sorting}
    (hindex : env.index = store.asIndex toLower t sorting) (ht : Steady store now t)
    (hnow : Steady store now (env.now 1)) :
    ∃ stamp : LongTermMemory → Option ℤ, loadContext cfg store scope query env =
      .ok (contextWith cfg store scope (env.now 0)
        ((Shortlist.pick (recallLimit cfg store scope)
          (fun item => matchesQuery toLower query item.content)
          (sorting.sort (recallable store scope.normalized now))
          (env.sorting.sort (recallable store scope.normalized now))).map fun item =>
            { item with lastUsedAt := stamp item })) := by
  have hsearch := asIndex_search cfg store query toLower t h sorting
  rw [← hindex, ht.recallable_eq] at hsearch
  rw [loadContext_found query h hon hsearch, hnow.recallable_eq]
  have hstore : ∀ (sorting : Sorting) (x : LongTermMemory),
      x ∈ (sorting.sort (recallable store scope.normalized now)).take
        (recallLimit cfg store scope) → x ∈ store.longTerm := fun sorting x hx =>
    ((mem_recalled_iff h).mp (sorting.mem_sort.mp (List.mem_of_mem_take hx))).1
  have hstore₁ := hstore sorting
  have hstore₂ := hstore env.sorting
  unfold keepFound Shortlist.pick
  generalize (sorting.sort _).take _ = l₁ at *
  generalize (env.sorting.sort _).take _ = l₂ at *
  simp only [List.map_eq_nil_iff]
  split
  · exact ⟨fun item => item.lastUsedAt, by simp⟩
  · refine ⟨fun _ => some (env.now 2), ?_⟩
    rw [filter_mem_map_id store]
    · exact fun x hx => hstore₁ x (List.mem_filter.mp hx).1
    · exact hstore₂

/-- The wanted memories of the store are the wanted ones among those listed. -/
theorem filter_wanted (h : validateSessionScope scope = .ok ()) :
    (recallable store scope.normalized now).filter (fun item =>
        decide (QueryMatches toLower query item.content) && decide (item.InScope scope)) =
      store.longTerm.filter fun item => item.Wanted toLower scope query now := by
  have hmem : ∀ item, item ∈ recallable store scope.normalized now ↔ _ := fun item =>
    mem_recalled_iff h
  unfold recallable selected at hmem ⊢
  rw [List.filter_filter]
  refine List.filter_congr fun item hitem => ?_
  have hiff := hmem item
  rw [List.mem_filter] at hiff
  rw [Bool.eq_iff_iff]
  simp only [Bool.and_eq_true, decide_eq_true_eq]
  constructor
  · rintro ⟨⟨hq, he⟩, hm⟩
    obtain ⟨-, -, -, -, hactive, hexpired⟩ := hiff.mp ⟨hitem, hm⟩
    exact ⟨hactive, hexpired, he, hq⟩
  · rintro ⟨hactive, hexpired, he, hq⟩
    exact ⟨⟨hq, he⟩, (hiff.mpr ⟨hitem, he.1, he.2.1, .inr he.2.2, hactive, hexpired⟩).2⟩

/-- **Being delivered is being complete**, for a part of what is listed. -/
theorem delivered_iff (h : validateSessionScope scope = .ok ()) {result : List LongTermMemory}
    (hresult : result.Nodup) (hsub : ∀ x ∈ result, x ∈ recallable store scope.normalized now)
    (stamp : LongTermMemory → Option ℤ) :
    Delivered toLower store scope query now n
        (result.map fun item => { item with lastUsedAt := stamp item }) ↔
      Shortlist.Complete n (fun item => decide (QueryMatches toLower query item.content))
        (fun item => decide (item.InScope scope)) (recallable store scope.normalized now)
        result := by
  have hstore : ∀ x ∈ result, x ∈ store.longTerm := fun x hx =>
    ((mem_recalled_iff h).mp (hsub x hx)).1
  constructor
  · intro hd
    refine ⟨fun x hx => ?_, ?_⟩
    · obtain ⟨item, hitem, hwanted, heq⟩ := hd.sound _ (List.mem_map.mpr ⟨x, hx, rfl⟩)
      have hid := congrArg LongTermMemory.id heq
      simp only at hid
      obtain rfl := eq_of_id_eq (hstore x hx) hitem hid
      exact ⟨decide_eq_true hwanted.2.2.2, decide_eq_true hwanted.2.2.1⟩
    · have hlength := hd.length
      rwa [List.length_map, ← filter_wanted h] at hlength
  · intro hc
    refine ⟨?_, ?_, ?_⟩
    · rintro m hm
      obtain ⟨x, hx, rfl⟩ := List.mem_map.mp hm
      obtain ⟨hq, he⟩ := hc.sound x hx
      obtain ⟨-, -, -, -, hactive, hexpired⟩ := (mem_recalled_iff h).mp (hsub x hx)
      exact ⟨x, hstore x hx,
        ⟨hactive, hexpired, of_decide_eq_true he, of_decide_eq_true hq⟩, rfl⟩
    · rw [List.map_map]
      exact hresult.map_on fun x hx y hy heq => eq_of_id_eq (hstore x hx) (hstore y hy) heq
    · rw [List.length_map, ← filter_wanted h]
      exact hc.length

end SelfIndexed

/-- A sorting that gives one list in a prescribed order. -/
def Sorting.giving {items l : List LongTermMemory} (h : Listing (Precedes items) items l) :
    Sorting where
  sort items' := if items' = items then l else Sorting.merge.sort items'
  listing items' := by
    split
    · next heq =>
      rw [heq]
      exact h
    · exact Sorting.merge.listing items'

@[simp] theorem Sorting.giving_sort {items l : List LongTermMemory}
    (h : Listing (Precedes items) items l) : (Sorting.giving h).sort items = l := if_pos rfl

theorem nodup_recallable (store : InMemoryStore) (scope : MemoryScope) (now : ℤ) :
    (recallable store scope now).Nodup :=
  (List.Nodup.of_map _ store.longTerm_nodup).sublist List.filter_sublist

/-- **When a recall is sound and complete.** For a session scope that is accepted, with
recall enabled and the store as its own index, for every query and every time, and for all
calls: `LoadContext` returns the active, unexpired memories of exactly this scope that the
query matches, and as many as there are or as the limit allows, if and only if nothing is
listed at all or the memories are ranked as `Shortlist.Sufficient` says. Among other things
there is then a memory that the query matches. -/
theorem recall_complete_iff (toLower : Char → Char) (cfg : MemoryConfig) (store : InMemoryStore)
    (scope : MemoryScope) (query : String) (now : ℤ) (h : validateSessionScope scope = .ok ())
    (hon : recallEnabled cfg store scope = true) :
    (∀ env, SelfIndexed toLower store now env →
      ∃ ctx, loadContext cfg store scope query env = .ok ctx ∧
        Delivered toLower store scope query now (recallLimit cfg store scope) ctx.longTerm) ↔
      recallable store scope.normalized now = [] ∨
        Shortlist.Sufficient (Precedes (recallable store scope.normalized now))
          (recallLimit cfg store scope)
          (fun item => decide (QueryMatches toLower query item.content))
          (fun item => decide (item.InScope scope))
          (recallable store scope.normalized now) := by
  have hmatches : (fun item : LongTermMemory => matchesQuery toLower query item.content) =
      fun item => decide (QueryMatches toLower query item.content) := by
    funext item
    rw [Bool.eq_iff_iff, decide_eq_true_eq, matchesQuery_iff]
  have hnodup := nodup_recallable store scope.normalized now
  rw [← Shortlist.complete_iff (precedes_weakOrder _) hnodup (recallLimit_pos cfg store scope)]
  have hpart : ∀ {l₁ l₂}, Listing (Precedes (recallable store scope.normalized now))
      (recallable store scope.normalized now) l₂ → ∀ q : LongTermMemory → Bool,
      (Shortlist.pick (recallLimit cfg store scope) q l₁ l₂).Sublist l₂ := fun _ _ =>
    Shortlist.pick_sublist.trans (List.take_sublist _ _)
  constructor
  · intro hall l₁ l₂ hl₁ hl₂
    -- a call whose two listings are the given ones
    obtain ⟨env, hindex, hsorting, hclock⟩ : ∃ env : Env,
        env.index = store.asIndex toLower now (.giving hl₁) ∧ env.sorting = .giving hl₂ ∧
          ∀ k, env.now k = now :=
      ⟨{ quietEnv with
          now := fun _ => now, sorting := .giving hl₂
          index := store.asIndex toLower now (.giving hl₁) }, rfl, rfl, fun _ => rfl⟩
    have hsteady : Steady store now now := fun _ _ => Iff.rfl
    have hnow : Steady store now (env.now 1) := by rwa [hclock]
    obtain ⟨ctx, hctx, hd⟩ := hall env ⟨⟨now, _, hsteady, hindex⟩, hnow⟩
    obtain ⟨stamp, hload⟩ := loadContext_pick query h hon hindex hsteady hnow
    rw [hload] at hctx
    obtain rfl := Except.ok.inj hctx
    rw [hsorting, contextWith_longTerm, hmatches, Sorting.giving_sort, Sorting.giving_sort] at hd
    refine (delivered_iff h ?_ (fun x hx => ?_) stamp).mp hd
    · exact (hl₂.perm.nodup_iff.mpr hnodup).sublist (hpart hl₂ _)
    · exact hl₂.perm.mem_iff.mp ((hpart hl₂ _).subset hx)
  · rintro hall env ⟨⟨t, sorting, ht, hindex⟩, hnow⟩
    obtain ⟨stamp, hload⟩ := loadContext_pick query h hon hindex ht hnow
    refine ⟨_, hload, ?_⟩
    have hl₂ := env.sorting.listing (recallable store scope.normalized now)
    rw [contextWith_longTerm, hmatches, delivered_iff h]
    · exact hall _ _ (sorting.listing _) hl₂
    · exact (hl₂.perm.nodup_iff.mpr hnodup).sublist (hpart hl₂ _)
    · exact fun x hx => hl₂.perm.mem_iff.mp ((hpart hl₂ _).subset hx)

/-- The note is recalled by one of its words. -/
theorem oneNote_recalled :
    ∃ ctx, loadContext recalling oneNote (sessionOf "prod") "disk usage"
        { quietEnv with index := oneNote.asIndex Char.toLower 0 .merge } = .ok ctx ∧
      Delivered Char.toLower oneNote (sessionOf "prod") "disk usage" 0
        (recallLimit recalling oneNote (sessionOf "prod")) ctx.longTerm :=
  (recall_complete_iff Char.toLower recalling oneNote (sessionOf "prod") "disk usage" 0
    (by decide) (by decide)).mpr (.inr ⟨by decide, by decide, .inl (by decide)⟩) _
      ⟨⟨0, .merge, fun _ _ => Iff.rfl, rfl⟩, fun _ _ => Iff.rfl⟩

/-- **A query that matches nothing is answered by the newest memories.** -/
theorem recall_of_no_match :
    ¬ ∀ toLower cfg store scope query now env, validateSessionScope scope = .ok () →
      recallEnabled cfg store scope = true → trimSpace query ≠ "" →
      SelfIndexed toLower store now env →
      ∃ ctx, loadContext cfg store scope query env = .ok ctx ∧
        Delivered toLower store scope query now (recallLimit cfg store scope) ctx.longTerm := by
  intro hall
  obtain ⟨env, hindex, hclock⟩ : ∃ env : Env,
      env.index = oneNote.asIndex Char.toLower 0 .merge ∧ ∀ k, env.now k = 0 :=
    ⟨{ quietEnv with index := oneNote.asIndex Char.toLower 0 .merge }, rfl, fun _ => rfl⟩
  have hlisted : recallable oneNote (sessionOf "prod").normalized 0 = oneNote.longTerm := by
    decide
  have hsearch := asIndex_search recalling oneNote "memory" Char.toLower 0
    (show validateSessionScope (sessionOf "prod") = .ok () by decide) .merge
  have hnothing : ∀ x ∈ oneNote.longTerm,
      ¬ matchesQuery Char.toLower "memory" x.content = true := by decide
  rw [List.filter_eq_nil_iff.mpr fun x hx => hnothing x ?_, ← hindex] at hsearch
  · obtain ⟨ctx, hload, hctx⟩ :=
      loadContext_oneNote _ _ env (by decide) (by decide) hlisted hclock hsearch
    have hsteady : Steady oneNote 0 (env.now 1) := by
      rw [hclock]
      exact fun _ _ => Iff.rfl
    obtain ⟨ctx', hload', hd⟩ := hall Char.toLower recalling oneNote (sessionOf "prod") "memory" 0
      env (by decide) (by decide) (by decide) ⟨⟨0, _, fun _ _ => Iff.rfl, hindex⟩, hsteady⟩
    rw [hload] at hload'
    obtain rfl := Except.ok.inj hload'
    -- one memory is returned, and none is wanted
    have hlength := hd.length
    rw [hctx] at hlength
    exact absurd hlength (by decide)
  · have hx' := Sorting.merge.mem_sort.mp (List.mem_of_mem_take hx)
    rwa [hlisted] at hx'

end MonitorSystem
