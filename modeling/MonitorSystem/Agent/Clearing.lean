import MonitorSystem.Agent.MemoryGovernance
import MonitorSystem.Agent.MySqlStore
import MonitorSystem.Library.Shortlist

/-!
# Clearing a scope

`ClearMemories` runs `DeleteMemories` with a selector that names a scope and nothing else.
`DeleteMemories` is written against the interface `MemoryStore`; what it needs of a store is a
`LongTermStore`, and over every such store a run without an error deletes exactly the memories
that have been listed, with one event for each of them (`LongTermStore.deletes_of_ok`). So a
scope is cleared if and only if all of it has been listed.

`InMemoryStore` lists all of it. `MySQLMemoryStore` lists twenty memories where no limit is given,
and compares their texts with the query of the request (`clears_scope_iff`).
-/

namespace MonitorSystem

/-! ### The interface -/

/-- **The selector of `ClearMemories`**: neither an id nor a type, a status or a limit is given. -/
structure MemorySelector.NamesScopeOnly (selector : MemorySelector) : Prop where
  id : selector.id = ""
  type : selector.type = ""
  status : selector.status = .unset
  limit : selector.limit = 0

/-- An active memory of exactly a scope that has not expired. -/
structure LongTermMemory.Current (item : LongTermMemory) (scope : MemoryScope) (now : ℤ) :
    Prop where
  tenant : item.scope.tenantId = scope.tenantId
  team : item.scope.teamId = scope.teamId
  cluster : item.scope.clusterId = scope.clusterId
  active : item.status = .active
  unexpired : ∀ t ∈ item.expiresAt, now < t

/-- A memory with its new status, if it has the id. -/
def marked (id : String) (status : LongTermStatus) (now : ℤ) (item : LongTermMemory) :
    LongTermMemory :=
  if item.id = id then { item with status, updatedAt := now } else item

/-- **`MemoryStore`, as far as a deletion goes**: the memories and the events that a store holds,
the events as the id of a memory and an action, and its operations. Marking and recording may
depend on the reading of the clock with which they are called. -/
structure LongTermStore (σ : Type) where
  memories : σ → List LongTermMemory
  events : σ → List (Option String × String)
  recordedId : String → Option String
  list : σ → MemorySelector → ℤ → Except String (List LongTermMemory)
  mark : ℕ → σ → String → LongTermStatus → ℤ → Except String σ
  record : ℕ → σ → MemoryEvent → Option σ
  memories_nodup : ∀ s, ((memories s).map (·.id)).Nodup
  listed : ∀ {s selector now items}, list s selector now = .ok items →
    items.Nodup ∧ ∀ item ∈ items, item ∈ memories s
  mark_ok : ∀ {k s id status now t}, status = .deleting ∨ status = .deleted →
    mark k s id status now = .ok t →
      events t = events s ∧
        ∀ item, item ∈ memories t ↔ item ∈ (memories s).map (marked id status now)
  record_ok : ∀ {k s e t}, record k s e = some t →
    memories t = memories s ∧ events t = events s ++ [(recordedId e.memoryId, e.action)]

namespace LongTermStore

variable {σ : Type} (S : LongTermStore σ)

/-- The loop of `DeleteMemories` that marks the memories as being deleted. -/
def markDeleting (env : Env) : ℕ → σ → List LongTermMemory → σ × Except String Unit
  | _, s, [] => (s, .ok ())
  | k, s, item :: items =>
    match S.mark k s item.id .deleting (env.now k) with
    | .error e => (s, .error e)
    | .ok s => markDeleting env (k + 1) s items

/-- The loop that marks the memories as deleted and records it; that an event is not recorded is
ignored. -/
def markDeleted (env : Env) : ℕ → σ → List LongTermMemory → σ × Except String Unit
  | _, s, [] => (s, .ok ())
  | k, s, item :: items =>
    match S.mark k s item.id .deleted (env.now k) with
    | .error e => (s, .error e)
    | .ok s =>
      markDeleted env (k + 2)
        ((S.record k s
          { id := env.uuid k, memoryId := item.id, scope := item.scope, action := "delete"
            detail := "删除长期记忆", createdAt := env.now (k + 1) }).getD s)
        items

/-- `DeleteMemories`. -/
def deleteMemories (s : σ) (selector : MemorySelector) (env : Env) : σ × Except String Unit :=
  match validateMemoryScope selector.scope with
  | .error e => (s, .error e)
  | .ok () =>
    match S.list s selector (env.now 0) with
    | .error e => (s, .error e)
    | .ok items =>
      match S.markDeleting env 1 s items with
      | (s, .error e) => (s, .error e)
      | (s, .ok ()) =>
        match env.index.delete (vectorIds items) with
        | .error e => (s, .error e)
        | .ok () => S.markDeleted env (items.length + 1) s items

/-! ### What a deletion does -/

/-- **Only the memories with some ids have been touched.** -/
def Outside (ids : List String) (s t : σ) : Prop :=
  ∀ item : LongTermMemory, item.id ∉ ids → (item ∈ S.memories t ↔ item ∈ S.memories s)

/-- The memories with some ids are deleted. -/
def Deleted (ids : List String) (s : σ) : Prop :=
  ∀ item ∈ S.memories s, item.id ∈ ids → item.status = .deleted

/-- The events of the deletion of some memories. -/
def deleteEvents (ids : List String) : List (Option String × String) :=
  ids.map fun id => (S.recordedId id, "delete")

/-- Events are recorded. -/
def Records : Prop := ∀ k s e, (S.record k s e).isSome

variable {S} {s t u : σ} {env : Env} {ids : List String} {items : List LongTermMemory}

theorem mem_map_marked {id : String} {status : LongTermStatus} {now : ℤ} {item : LongTermMemory}
    (h : item.id ≠ id) : item ∈ items.map (marked id status now) ↔ item ∈ items := by
  rw [List.mem_map]
  constructor
  · rintro ⟨old, hold, rfl⟩
    unfold marked at h ⊢
    split
    · next heq => simp [heq] at h
    · exact hold
  · exact fun hmem => ⟨item, hmem, if_neg h⟩

/-- One mark touches the memory with its id. -/
theorem outside_mark {k : ℕ} {id : String} {status : LongTermStatus} {now : ℤ}
    (hstatus : status = .deleting ∨ status = .deleted) (h : S.mark k s id status now = .ok t)
    (hid : id ∈ ids) : S.Outside ids s t := by
  intro item hitem
  rw [(S.mark_ok hstatus h).2, mem_map_marked fun heq => hitem (heq ▸ hid)]

theorem Outside.trans (h : S.Outside ids s t) (h' : S.Outside ids t u) : S.Outside ids s u :=
  fun item hitem => (h' item hitem).trans (h item hitem)

/-- A memory that is marked as deleted is deleted like those before it. -/
theorem Deleted.mark (hs : S.Deleted ids s) {k : ℕ} {id : String} {now : ℤ}
    (h : S.mark k s id .deleted now = .ok t) : S.Deleted (id :: ids) t := by
  intro item hitem hid
  obtain ⟨old, hold, rfl⟩ := List.mem_map.mp (((S.mark_ok (.inr rfl) h).2 item).mp hitem)
  unfold marked at hid ⊢
  split
  · rfl
  · next hne =>
    rw [if_neg hne] at hid
    exact hs old hold ((List.mem_cons.mp hid).resolve_left hne)

/-- Recording touches no memory, whether it succeeds or not. -/
theorem memories_record (k : ℕ) (s : σ) (e : MemoryEvent) :
    S.memories ((S.record k s e).getD s) = S.memories s := by
  cases h : S.record k s e with
  | none => rfl
  | some t => exact (S.record_ok h).1

/-- **The first loop** touches the listed memories only, and records nothing. -/
theorem markDeleting_ok {k : ℕ} (hids : ∀ item ∈ items, item.id ∈ ids)
    (h : S.markDeleting env k s items = (t, .ok ())) :
    S.Outside ids s t ∧ S.events t = S.events s := by
  induction items generalizing k s with
  | nil =>
    obtain rfl := (Prod.mk.inj h).1
    exact ⟨fun _ _ => Iff.rfl, rfl⟩
  | cons item items ih =>
    obtain ⟨hid, hids⟩ := List.forall_mem_cons.mp hids
    rw [markDeleting] at h
    split at h
    · cases (Prod.mk.inj h).2
    · next s' hmark =>
      obtain ⟨houtside, hevents⟩ := ih hids h
      exact ⟨(outside_mark (.inl rfl) hmark hid).trans houtside,
        hevents.trans (S.mark_ok (.inl rfl) hmark).1⟩

/-- **The second loop** deletes each of the listed memories. -/
theorem markDeleted_ok {k : ℕ} (done : List String) (hids : ∀ item ∈ items, item.id ∈ ids)
    (hdone : S.Deleted done s) (h : S.markDeleted env k s items = (t, .ok ())) :
    S.Outside ids s t ∧ S.Deleted ((items.map (·.id)).reverse ++ done) t := by
  induction items generalizing k s done with
  | nil =>
    obtain rfl := (Prod.mk.inj h).1
    exact ⟨fun _ _ => Iff.rfl, hdone⟩
  | cons item items ih =>
    obtain ⟨hid, hids⟩ := List.forall_mem_cons.mp hids
    rw [markDeleted] at h
    split at h
    · cases (Prod.mk.inj h).2
    · next s' hmark =>
      have hnext : S.Deleted (item.id :: done) s' := hdone.mark hmark
      obtain ⟨houtside, hdeleted⟩ := ih (item.id :: done) hids
        (fun x hx => hnext x (memories_record k s' _ ▸ hx)) h
      refine ⟨(outside_mark (.inr rfl) hmark hid).trans fun x hx => ?_, ?_⟩
      · rw [houtside x hx, memories_record]
      · rw [List.map_cons, List.reverse_cons, List.append_assoc]
        exact hdeleted

/-- The second loop records an event for each of the memories, if events are recorded. -/
theorem events_markDeleted {k : ℕ} (hrecord : S.Records)
    (h : S.markDeleted env k s items = (t, .ok ())) :
    S.events t = S.events s ++ S.deleteEvents (items.map (·.id)) := by
  induction items generalizing k s with
  | nil =>
    obtain rfl := (Prod.mk.inj h).1
    exact (List.append_nil _).symm
  | cons item items ih =>
    rw [markDeleted] at h
    split at h
    · cases (Prod.mk.inj h).2
    · next s' hmark =>
      obtain ⟨s'', hs''⟩ := Option.isSome_iff_exists.mp (hrecord k s'
        { id := env.uuid k, memoryId := item.id, scope := item.scope, action := "delete"
          detail := "删除长期记忆", createdAt := env.now (k + 1) })
      rw [hs'', Option.getD_some] at h
      rw [ih h, (S.record_ok hs'').2, (S.mark_ok (.inr rfl) hmark).1, List.append_assoc]
      rfl

/-- **A run without an error deletes exactly the listed memories**, with one event for each of
them if events are recorded. -/
theorem deletes_of_ok {selector : MemorySelector}
    (h : S.deleteMemories s selector env = (t, .ok ())) :
    ∃ items, S.list s selector (env.now 0) = .ok items ∧
      S.Outside (items.map (·.id)) s t ∧ S.Deleted (items.map (·.id)) t ∧
        (S.Records → S.events t = S.events s ++ S.deleteEvents (items.map (·.id))) := by
  unfold deleteMemories at h
  split at h
  · cases (Prod.mk.inj h).2
  · split at h
    · cases (Prod.mk.inj h).2
    · next items hlist =>
      split at h
      · cases (Prod.mk.inj h).2
      · next s' hmarked =>
        split at h
        · cases (Prod.mk.inj h).2
        · have hids : ∀ item ∈ items, item.id ∈ items.map (·.id) := fun _ => List.mem_map_of_mem
          obtain ⟨hfirst, hquiet⟩ := markDeleting_ok hids hmarked
          obtain ⟨hsecond, hdeleted⟩ := markDeleted_ok [] hids
            (fun _ _ hmem => absurd hmem List.not_mem_nil) h
          refine ⟨items, hlist, hfirst.trans hsecond, fun x hx hid => hdeleted x hx ?_,
            fun hrecord => ?_⟩
          · simpa using hid
          · rw [events_markDeleted hrecord h, hquiet]

/-! ### A scope that is cleared -/

variable (S)

/-- **The scope has been cleared**: nothing current is left in it, and some memories have been
deleted, which are all that has been touched, with one event for each of them if events are
recorded. -/
structure Cleared (scope : MemoryScope) (now : ℤ) (s t : σ) : Prop where
  none_left : ∀ item ∈ S.memories t, ¬ item.Current scope now
  deleted : ∃ ids : List String, ids.Nodup ∧
    (∀ id ∈ ids, ∃ item ∈ S.memories s, item.id = id) ∧ S.Outside ids s t ∧ S.Deleted ids t ∧
      (S.Records → S.events t = S.events s ++ S.deleteEvents ids)

variable {S}

/-- **A scope is cleared if and only if all of it has been listed.** -/
theorem cleared_iff {selector : MemorySelector} {scope : MemoryScope} {now : ℤ}
    (hlist : S.list s selector (env.now 0) = .ok items)
    (h : S.deleteMemories s selector env = (t, .ok ())) :
    S.Cleared scope now s t ↔ ∀ item ∈ S.memories s, item.Current scope now → item ∈ items := by
  obtain ⟨items', hlist', houtside, hdeleted, hevents⟩ := deletes_of_ok h
  obtain rfl := Except.ok.inj (hlist.symm.trans hlist')
  obtain ⟨hnodup, hmem⟩ := S.listed hlist
  have hinj : ∀ a ∈ S.memories s, ∀ b ∈ S.memories s, a.id = b.id → a = b :=
    fun a ha b hb => List.inj_on_of_nodup_map (S.memories_nodup s) ha hb
  constructor
  · intro hcleared item hitem hcurrent
    by_contra hnot
    refine hcleared.none_left item ((houtside item fun hid => ?_).mpr hitem) hcurrent
    obtain ⟨other, hother, heq⟩ := List.mem_map.mp hid
    exact hnot (hinj other (hmem other hother) item hitem heq ▸ hother)
  · intro hall
    refine ⟨fun item hitem hcurrent => ?_, items.map (·.id), ?_, ?_, houtside, hdeleted, hevents⟩
    · by_cases hid : item.id ∈ items.map (·.id)
      · cases hcurrent.active.symm.trans (hdeleted item hitem hid)
      · exact hid (List.mem_map_of_mem (hall item ((houtside item hid).mp hitem) hcurrent))
    · exact List.Nodup.map_on (fun a ha b hb => hinj a (hmem a ha) b (hmem b hb)) hnodup
    · intro id hid
      obtain ⟨item, hitem, rfl⟩ := List.mem_map.mp hid
      exact ⟨item, hmem item hitem, rfl⟩

end LongTermStore

/-! ### The store in memory -/

theorem limited_sublist {α : Type} (limit : ℤ) (l : List α) : (limited limit l).Sublist l := by
  unfold limited
  split
  · exact List.take_sublist _ _
  · exact List.Sublist.refl l

namespace InMemoryStore

theorem nodup_longTerm (store : InMemoryStore) : store.longTerm.Nodup :=
  List.Nodup.of_map _ store.longTerm_nodup

/-- What is listed are memories of the store, each of them once. -/
theorem listed_of_ok {store : InMemoryStore} {selector : MemorySelector} {now : ℤ}
    {sorting : Sorting} {items : List LongTermMemory}
    (h : store.listLongTermMemories selector now sorting = .ok items) :
    items.Nodup ∧ ∀ item ∈ items, item ∈ store.longTerm := by
  cases hscope : validateMemoryScope selector.scope with
  | error e =>
    rw [listLongTermMemories_refused store hscope] at h
    cases h
  | ok _ =>
    rw [listLongTermMemories_eq store hscope] at h
    obtain rfl := Except.ok.inj h
    have hselected : (store.selected selector now).Nodup :=
      store.nodup_longTerm.sublist List.filter_sublist
    constructor
    · exact ((sorting.listing _).perm.nodup_iff.mpr hselected).sublist (limited_sublist _ _)
    · exact fun item hitem => List.mem_of_mem_filter (sorting.mem_sort.mp (mem_limited hitem))

theorem mem_markLongTermStatus {store store' : InMemoryStore} {id : String}
    {status : LongTermStatus} {now : ℤ} (h : store.markLongTermStatus id status now = .ok store') :
    store'.events = store.events ∧
      ∀ item, item ∈ store'.longTerm ↔ item ∈ store.longTerm.map (marked id status now) := by
  unfold markLongTermStatus at h
  split at h
  · cases h
  · next old hfind =>
    obtain rfl := Except.ok.inj h
    have hold := List.mem_of_find?_eq_some hfind
    have hid : old.id = id := by simpa using List.find?_some hfind
    refine ⟨rfl, fun item => mem_put.trans ⟨?_, fun hitem => ?_⟩⟩
    · rintro (rfl | ⟨hitem, hne⟩)
      · exact List.mem_map.mpr ⟨old, hold, if_pos hid⟩
      · exact (LongTermStore.mem_map_marked (hid ▸ hne)).mpr hitem
    · obtain ⟨other, hother, rfl⟩ := List.mem_map.mp hitem
      unfold marked
      split
      · next heq =>
        obtain rfl := eq_of_id_eq hother hold (heq.trans hid.symm)
        exact .inl rfl
      · next hne => exact .inr ⟨hother, fun heq => hne (heq.trans hid)⟩

/-- The store in memory, with what a call meets. -/
def longTermStore (env : Env) : LongTermStore InMemoryStore where
  memories store := store.longTerm
  events store := store.events.map fun e => (some e.memoryId, e.action)
  recordedId := some
  list store selector now := store.listLongTermMemories selector now env.sorting
  mark _ store id status now := store.markLongTermStatus id status now
  record k store e := if env.recorded k then some (store.recordMemoryEvent e) else none
  memories_nodup store := store.longTerm_nodup
  listed := listed_of_ok
  mark_ok _ h := ⟨congrArg _ (mem_markLongTermStatus h).1, (mem_markLongTermStatus h).2⟩
  record_ok h := by
    obtain ⟨-, h⟩ := Option.ite_none_right_eq_some.mp h
    obtain rfl := Option.some.inj h
    exact ⟨rfl, List.map_append⟩

theorem markDeleting_eq (env : Env) (k : ℕ) (store : InMemoryStore) (items : List LongTermMemory) :
    (longTermStore env).markDeleting env k store items = markDeleting env k store items := by
  induction items generalizing k store with
  | nil => rfl
  | cons item items ih =>
    have hmark : (longTermStore env).mark k store item.id .deleting (env.now k) =
        store.markLongTermStatus item.id .deleting (env.now k) := rfl
    rw [LongTermStore.markDeleting, MonitorSystem.markDeleting, hmark]
    cases store.markLongTermStatus item.id .deleting (env.now k) with
    | error e => rfl
    | ok store => exact ih (k + 1) store

theorem markDeleted_eq (env : Env) (k : ℕ) (store : InMemoryStore) (items : List LongTermMemory) :
    (longTermStore env).markDeleted env k store items =
      markDeleted env "delete" "删除长期记忆" k store items := by
  induction items generalizing k store with
  | nil => rfl
  | cons item items ih =>
    have hmark : (longTermStore env).mark k store item.id .deleted (env.now k) =
        store.markLongTermStatus item.id .deleted (env.now k) := rfl
    have hrecord : ∀ s e, ((longTermStore env).record k s e).getD s = recordEvent env k s e := by
      intro s e
      simp only [longTermStore, recordEvent]
      split <;> rfl
    rw [LongTermStore.markDeleted, MonitorSystem.markDeleted, hmark]
    cases store.markLongTermStatus item.id .deleted (env.now k) with
    | error e => rfl
    | ok store =>
      dsimp only
      rw [hrecord, ih]

/-- **The deletion of the manager** is the one over its store. -/
theorem deleteMemories_eq (store : InMemoryStore) (selector : MemorySelector) (env : Env) :
    (longTermStore env).deleteMemories store selector env = deleteMemories store selector env := by
  have hlist : (longTermStore env).list store selector (env.now 0) =
      store.listLongTermMemories selector (env.now 0) env.sorting := rfl
  rw [LongTermStore.deleteMemories, MonitorSystem.deleteMemories, hlist]
  cases validateMemoryScope selector.scope with
  | error e => rfl
  | ok _ =>
    cases store.listLongTermMemories selector (env.now 0) env.sorting with
    | error e => rfl
    | ok items =>
      dsimp only
      rw [markDeleting_eq]
      obtain ⟨store', e | _⟩ := markDeleting env 1 store items
      · rfl
      · dsimp only
        cases env.index.delete (vectorIds items) with
        | error e => rfl
        | ok _ => exact markDeleted_eq env (items.length + 1) store' items

/-- A selector that names a scope only lists everything that is current in it. -/
theorem mem_listed_of_current {store : InMemoryStore} {selector : MemorySelector} {now : ℤ}
    {sorting : Sorting} {items : List LongTermMemory} {item : LongTermMemory}
    (hselector : selector.NamesScopeOnly)
    (h : store.listLongTermMemories selector now sorting = .ok items)
    (hitem : item ∈ store.longTerm) (hcurrent : item.Current selector.scope.normalized now) :
    item ∈ items := by
  cases hscope : validateMemoryScope selector.scope with
  | error e =>
    rw [listLongTermMemories_refused store hscope] at h
    cases h
  | ok _ =>
    rw [listLongTermMemories_eq store hscope, hselector.limit] at h
    obtain rfl := Except.ok.inj h
    have hunexpired : ¬ ∃ t ∈ item.expiresAt, t < now := fun ⟨t, ht, hlt⟩ =>
      Int.not_lt.mpr (Int.le_of_lt (hcurrent.unexpired t ht)) hlt
    have hmatch : matchMemory { selector with scope := selector.scope.normalized } item now =
        true :=
      decide_eq_true ⟨.inl hselector.id, .inr hcurrent.tenant, .inr hcurrent.team,
        .inr hcurrent.cluster, .inl hselector.type, .inl hselector.status,
        .inr (by simp [hcurrent.active]), .inl hcurrent.active, hunexpired⟩
    exact sorting.mem_sort.mpr (List.mem_filter.mpr ⟨hitem, hmatch⟩)

end InMemoryStore

/-! ### The store in MySQL -/

/-- A database without failures that arranges some rows in a given order. -/
def MySql.giving (like : String → String → Bool) {rows l : List AgentLongTermMemoryModel}
    (h : Paging.Listing Newer rows l) : MySql where
  like
  arrange rows' := if rows' = rows then l else rows'.mergeSort fun a b => ! decide (Newer b a)
  listing rows' := by
    split
    · next heq =>
      rw [heq]
      exact h
    · exact Paging.listing_mergeSort newer_weakOrder rows'
  failed _ := none

namespace MySQLMemoryStore

theorem id_modelToLongTermMemory (rows : List AgentLongTermMemoryModel) :
    (rows.map modelToLongTermMemory).map (·.id) = rows.map (·.id) := by
  rw [List.map_map]
  rfl

/-- **What a listing gives**, for a scope that the validation accepts. -/
theorem listLongTermMemories_eq {m : MySql} {db : MySQLMemoryStore} {selector : MemorySelector}
    {now : ℤ} (hscope : validateMemoryScope selector.scope = .ok ()) (hm : m.failed 0 = none) :
    listLongTermMemories m db selector now =
      .ok (((m.arrange (db.selectedRows m.like selector now)).take
        (listLimit selector.limit)).map modelToLongTermMemory) := by
  unfold listLongTermMemories
  rw [validateMemoryScope_normalized, hscope, hm]
  rfl

/-- A listing that succeeds has been given a scope that is accepted. -/
theorem listed_eq {m : MySql} {db : MySQLMemoryStore} {selector : MemorySelector} {now : ℤ}
    {items : List LongTermMemory} (h : listLongTermMemories m db selector now = .ok items) :
    items = ((m.arrange (db.selectedRows m.like selector now)).take
      (listLimit selector.limit)).map modelToLongTermMemory := by
  cases hscope : validateMemoryScope selector.scope with
  | error e =>
    unfold listLongTermMemories at h
    rw [validateMemoryScope_normalized, hscope] at h
    cases h
  | ok _ =>
    cases hm : m.failed 0 with
    | some e =>
      unfold listLongTermMemories at h
      rw [validateMemoryScope_normalized, hscope, hm] at h
      cases h
    | none => exact (Except.ok.inj ((listLongTermMemories_eq hscope hm).symm.trans h)).symm

theorem listed_of_ok {m : MySql} {db : MySQLMemoryStore} {selector : MemorySelector} {now : ℤ}
    {items : List LongTermMemory} (h : listLongTermMemories m db selector now = .ok items) :
    items.Nodup ∧ ∀ item ∈ items, item ∈ db.longTerm.map modelToLongTermMemory := by
  obtain rfl := listed_eq h
  have hlisting := m.listing (db.selectedRows m.like selector now)
  have hselected : (db.selectedRows m.like selector now).Sublist db.longTerm :=
    List.filter_sublist
  constructor
  · refine List.Nodup.of_map (·.id) ?_
    rw [id_modelToLongTermMemory]
    refine List.Nodup.sublist ((List.take_sublist _ _).map _) ?_
    exact ((hlisting.perm.map _).nodup_iff.mpr (db.longTerm_nodup.sublist (hselected.map _)))
  · intro item hitem
    obtain ⟨row, hrow, rfl⟩ := List.mem_map.mp hitem
    exact List.mem_map_of_mem
      (hselected.subset (hlisting.perm.mem_iff.mp (List.mem_of_mem_take hrow)))

theorem modelToLongTermMemory_updated (id : String) (status : LongTermStatus) (now : ℤ)
    (row : AgentLongTermMemoryModel) :
    modelToLongTermMemory (updated id status now row) =
      marked id status now (modelToLongTermMemory row) := by
  unfold updated marked
  split
  · next h => rw [if_pos (show (modelToLongTermMemory row).id = id from h)]; rfl
  · next h => rw [if_neg (show (modelToLongTermMemory row).id ≠ id from h)]

theorem markLongTermStatus_ok {m : MySql} {k : ℕ} {db db' : MySQLMemoryStore} {id : String}
    {status : LongTermStatus} {now : ℤ} (h : markLongTermStatus m k db id status now = .ok db') :
    db'.events = db.events ∧ db'.longTerm = db.longTerm.map (updated id status now) := by
  unfold markLongTermStatus at h
  split at h
  · cases h
  · split at h
    · cases h
    · obtain rfl := Except.ok.inj h
      exact ⟨rfl, rfl⟩

theorem events_recordMemoryEvent (db : MySQLMemoryStore) (e : MemoryEvent) :
    (db.recordMemoryEvent e).events.map (fun e => (e.memoryId, e.action)) =
      db.events.map (fun e => (e.memoryId, e.action)) ++
        [(nonEmptyStringPtr e.memoryId, e.action)] := by
  rw [recordMemoryEvent, List.map_append, List.map_singleton, eventModel]

/-- The store in MySQL, with what a call meets. -/
def longTermStore (m : MySql) (env : Env) : LongTermStore MySQLMemoryStore where
  memories db := db.longTerm.map modelToLongTermMemory
  events db := db.events.map fun e => (e.memoryId, e.action)
  recordedId := nonEmptyStringPtr
  list db selector now := listLongTermMemories m db selector now
  mark k db id status now := markLongTermStatus m k db id status now
  record k db e := if env.recorded k then some (db.recordMemoryEvent e) else none
  memories_nodup db := by
    rw [id_modelToLongTermMemory]
    exact db.longTerm_nodup
  listed := listed_of_ok
  mark_ok _ h := by
    obtain ⟨hevents, hrows⟩ := markLongTermStatus_ok h
    refine ⟨congrArg _ hevents, fun item => ?_⟩
    rw [hrows, List.map_map, List.map_map]
    exact iff_of_eq (congrArg (item ∈ ·)
      (List.map_congr_left fun row _ => modelToLongTermMemory_updated _ _ _ row))
  record_ok h := by
    obtain ⟨-, h⟩ := Option.ite_none_right_eq_some.mp h
    obtain rfl := Option.some.inj h
    exact ⟨rfl, events_recordMemoryEvent _ _⟩

/-- **All that is current in the scope is listed in every run**: it has the text of the query, and
with what is not older it does not exceed the limit of a listing. -/
def ListedInFull (db : MySQLMemoryStore) (like : String → String → Bool)
    (selector : MemorySelector) (now : ℤ) : Prop :=
  ∀ row ∈ db.longTerm, (modelToLongTermMemory row).Current selector.scope.normalized now →
    hasText like selector.query row = true ∧
      ((db.selectedRows like selector now).countP fun other => ¬ other.updatedAt < row.updatedAt) ≤
        20

/-- A row that is current is selected if it has the text of the query. -/
theorem mem_selectedRows_iff {db : MySQLMemoryStore} {like : String → String → Bool}
    {selector : MemorySelector} {now : ℤ} {row : AgentLongTermMemoryModel}
    (hselector : selector.NamesScopeOnly) (hrow : row ∈ db.longTerm)
    (hcurrent : (modelToLongTermMemory row).Current selector.scope.normalized now) :
    row ∈ db.selectedRows like selector now ↔ hasText like selector.query row = true := by
  obtain ⟨htenant, hteam, hcluster, hactive, hunexpired⟩ := hcurrent
  have hstatus : row.status = .active := hactive
  rw [selectedRows, List.mem_filter, selects, decide_eq_true_iff]
  refine ⟨fun h => h.2.2.2.2.2.2.2, fun h => ⟨hrow, ⟨htenant, hteam, hcluster⟩, hunexpired,
    .inl hselector.id, .inl hselector.type, ?_, .inr (by simp [hstatus]), h⟩⟩
  rw [if_neg (not_not.mpr hselector.status)]
  exact .inr hstatus

/-! ### Runs that end without an error -/

/-- **A store in which some memories can be marked at a time**: they are there, and the time is
later than that of every row, so that a mark is a change. -/
structure Ready (ids : List String) (t : ℤ) (db : MySQLMemoryStore) : Prop where
  present : ∀ id ∈ ids, ∃ row ∈ db.longTerm, row.id = id
  earlier : ∀ row ∈ db.longTerm, row.updatedAt < t

variable {m : MySql} {env : Env} {ids : List String} {db : MySQLMemoryStore}

theorem Ready.congr {t : ℤ} {db' : MySQLMemoryStore} (h : Ready ids t db)
    (heq : db'.longTerm = db.longTerm) : Ready ids t db' :=
  ⟨fun id hid => heq ▸ h.present id hid, fun row hrow => h.earlier row (heq ▸ hrow)⟩

/-- Recording an event leaves the memories as they are. -/
theorem longTerm_record (k : ℕ) (db : MySQLMemoryStore) (e : MemoryEvent) :
    (((longTermStore m env).record k db e).getD db).longTerm = db.longTerm := by
  simp only [longTermStore]
  split <;> rfl

theorem Ready.mark {t t' : ℤ} (h : Ready ids t db) {k : ℕ} (hm : m.failed k = none) {id : String}
    (hid : id ∈ ids) (status : LongTermStatus) (ht : t < t') :
    ∃ db', markLongTermStatus m k db id status t = .ok db' ∧ Ready ids t' db' := by
  obtain ⟨row, hrow, hrowId⟩ := h.present id hid
  have hchanged : db.longTerm.map (updated id status t) ≠ db.longTerm := by
    intro heq
    have hsame : updated id status t row = row :=
      List.map_inj_left.mp (heq.trans (List.map_id _).symm) row hrow
    rw [updated, if_pos hrowId] at hsame
    have htime := h.earlier row hrow
    rw [← hsame] at htime
    exact absurd htime (Int.lt_irrefl t)
  unfold markLongTermStatus
  rw [hm]
  dsimp only
  rw [if_neg hchanged]
  refine ⟨_, rfl, fun id' hid' => ?_, fun row' hrow' => ?_⟩
  · obtain ⟨old, hold, rfl⟩ := h.present id' hid'
    exact ⟨_, List.mem_map_of_mem hold, id_updated id status t old⟩
  · obtain ⟨old, hold, rfl⟩ := List.mem_map.mp hrow'
    unfold updated
    split
    · exact ht
    · exact Int.lt_trans (h.earlier old hold) ht

/-- The clock goes on from its second reading. -/
def Ticks (env : Env) : Prop := ∀ k, 0 < k → env.now k < env.now (k + 1)

theorem Ready.markDeleting (hm : ∀ k, m.failed k = none) (hticks : Ticks env)
    {items : List LongTermMemory} (hids : ∀ item ∈ items, item.id ∈ ids) {k : ℕ} (hk : 0 < k)
    (h : Ready ids (env.now k) db) :
    ∃ db', (longTermStore m env).markDeleting env k db items = (db', .ok ()) ∧
      Ready ids (env.now (k + items.length)) db' := by
  induction items generalizing k db with
  | nil => exact ⟨db, rfl, h⟩
  | cons item items ih =>
    obtain ⟨hid, hids⟩ := List.forall_mem_cons.mp hids
    obtain ⟨db', hmark, hnext⟩ := h.mark (hm k) hid .deleting (hticks k hk)
    obtain ⟨db'', hrest, hlast⟩ := ih hids (Nat.succ_pos k) hnext
    have hstep : (longTermStore m env).mark k db item.id .deleting (env.now k) = .ok db' := hmark
    refine ⟨db'', ?_, ?_⟩
    · rw [LongTermStore.markDeleting, hstep]
      exact hrest
    · rwa [List.length_cons, Nat.add_comm items.length, ← Nat.add_assoc]

theorem Ready.markDeleted (hm : ∀ k, m.failed k = none) (hticks : Ticks env)
    {items : List LongTermMemory} (hids : ∀ item ∈ items, item.id ∈ ids) {k : ℕ} (hk : 0 < k)
    (h : Ready ids (env.now k) db) :
    ∃ db', (longTermStore m env).markDeleted env k db items = (db', .ok ()) := by
  induction items generalizing k db with
  | nil => exact ⟨db, rfl⟩
  | cons item items ih =>
    obtain ⟨hid, hids⟩ := List.forall_mem_cons.mp hids
    obtain ⟨db', hmark, hnext⟩ := h.mark (hm k) hid .deleted
      (Int.lt_trans (hticks k hk) (hticks (k + 1) (Nat.succ_pos k)))
    have hstep : (longTermStore m env).mark k db item.id .deleted (env.now k) = .ok db' := hmark
    rw [LongTermStore.markDeleted, hstep]
    exact ih hids (Nat.lt_add_left k Nat.two_pos) (hnext.congr (longTerm_record k db' _))

/-- **A deletion ends without an error** if the database does its part. -/
theorem exists_deleteMemories (hm : ∀ k, m.failed k = none) (hticks : Ticks env)
    (hdelete : ∀ ids, env.index.delete ids = .ok ()) {selector : MemorySelector}
    (hscope : validateMemoryScope selector.scope = .ok ())
    (hearlier : ∀ row ∈ db.longTerm, row.updatedAt < env.now 1) :
    ∃ db', (longTermStore m env).deleteMemories db selector env = (db', .ok ()) := by
  obtain ⟨items, hlist⟩ : ∃ items, (longTermStore m env).list db selector (env.now 0) =
      .ok items := ⟨_, listLongTermMemories_eq hscope (hm 0)⟩
  have hids : ∀ item ∈ items, item.id ∈ items.map (·.id) := fun _ => List.mem_map_of_mem
  have hready : Ready (items.map (·.id)) (env.now 1) db := by
    refine ⟨fun id hid => ?_, hearlier⟩
    obtain ⟨item, hitem, rfl⟩ := List.mem_map.mp hid
    obtain ⟨row, hrow, rfl⟩ := List.mem_map.mp (((longTermStore m env).listed hlist).2 item hitem)
    exact ⟨row, hrow, rfl⟩
  obtain ⟨db₁, hfirst, hready₁⟩ := hready.markDeleting hm hticks hids Nat.one_pos
  rw [Nat.add_comm] at hready₁
  obtain ⟨db₂, hsecond⟩ := hready₁.markDeleted hm hticks hids (Nat.succ_pos _)
  refine ⟨db₂, ?_⟩
  rw [LongTermStore.deleteMemories, hscope]
  dsimp only
  rw [hlist]
  dsimp only
  rw [hfirst]
  dsimp only
  rw [hdelete]
  exact hsecond

/-! ### Which scopes are cleared -/

/-- A call at some time whose later readings of the clock are all greater than a bound. -/
def lateEnv (now bound : ℤ) : Env :=
  { quietEnv with now := fun k => if k = 0 then now else bound + k }

theorem ticks_lateEnv (now bound : ℤ) : Ticks (lateEnv now bound) := by
  intro k hk
  simp only [lateEnv]
  rw [if_neg hk.ne', if_neg (Nat.succ_ne_zero k)]
  omega

theorem exists_bound (rows : List AgentLongTermMemoryModel) :
    ∃ bound : ℤ, ∀ row ∈ rows, row.updatedAt ≤ bound := by
  induction rows with
  | nil => exact ⟨0, fun row hrow => absurd hrow List.not_mem_nil⟩
  | cons row rows ih =>
    obtain ⟨bound, hbound⟩ := ih
    refine ⟨max row.updatedAt bound, List.forall_mem_cons.mpr ⟨by omega, fun other hother => ?_⟩⟩
    have hle := hbound other hother
    omega

/-- **A row that some listing leaves out is left in some run.** -/
theorem exists_not_cleared {like : String → String → Bool} {selector : MemorySelector} {now : ℤ}
    {row : AgentLongTermMemoryModel} {l : List AgentLongTermMemoryModel}
    (hselector : selector.NamesScopeOnly) (hscope : validateMemoryScope selector.scope = .ok ())
    (hrow : row ∈ db.longTerm)
    (hcurrent : (modelToLongTermMemory row).Current selector.scope.normalized now)
    (hl : Paging.Listing Newer (db.selectedRows like selector now) l) (hmissing : row ∉ l.take 20) :
    ∃ m : MySql, ∃ env : Env, ∃ t, m.like = like ∧ env.now 0 = now ∧
      (longTermStore m env).deleteMemories db selector env = (t, .ok ()) ∧
        ¬ (longTermStore m env).Cleared selector.scope.normalized now db t := by
  -- a database that gives this listing, and a call that ends without an error
  obtain ⟨m, rfl, harrange, hfailed⟩ : ∃ m : MySql, m.like = like ∧
      m.arrange (db.selectedRows like selector now) = l ∧ ∀ k, m.failed k = none :=
    ⟨.giving like hl, rfl, if_pos rfl, fun _ => rfl⟩
  obtain ⟨env, rfl, hticks, hdelete, hearlier⟩ : ∃ env : Env, env.now 0 = now ∧ Ticks env ∧
      (∀ ids, env.index.delete ids = .ok ()) ∧ ∀ row ∈ db.longTerm, row.updatedAt < env.now 1 := by
    obtain ⟨bound, hbound⟩ := exists_bound db.longTerm
    exact ⟨lateEnv now bound, rfl, ticks_lateEnv now bound, fun _ => rfl,
      fun row hrow => Int.lt_add_one_of_le (hbound row hrow)⟩
  obtain ⟨t, ht⟩ := exists_deleteMemories hfailed hticks hdelete hscope hearlier
  have hlist : (longTermStore m env).list db selector (env.now 0) =
      .ok ((l.take 20).map modelToLongTermMemory) := by
    refine (listLongTermMemories_eq hscope (hfailed 0)).trans ?_
    rw [hselector.limit, harrange]
    rfl
  refine ⟨m, env, t, rfl, rfl, ht, fun hcleared => ?_⟩
  have hitem : modelToLongTermMemory row ∈ (longTermStore m env).memories db :=
    List.mem_map_of_mem hrow
  have hlisted := (LongTermStore.cleared_iff hlist ht).mp hcleared _ hitem hcurrent
  obtain ⟨other, hother, heq⟩ := List.mem_map.mp hlisted
  have hmem : other ∈ db.longTerm :=
    List.mem_of_mem_filter (hl.perm.mem_iff.mp (List.mem_of_mem_take hother))
  have hid : other.id = row.id := congrArg LongTermMemory.id heq
  obtain rfl := List.inj_on_of_nodup_map db.longTerm_nodup hmem hrow hid
  exact hmissing hother

theorem nodup_selectedRows (db : MySQLMemoryStore) (like : String → String → Bool)
    (selector : MemorySelector) (now : ℤ) : (db.selectedRows like selector now).Nodup :=
  (List.Nodup.of_map _ db.longTerm_nodup).sublist List.filter_sublist

/-- Where some current row may be left out, it is left in some run. -/
theorem listedInFull_of_cleared {like : String → String → Bool} {selector : MemorySelector}
    {now : ℤ} (hselector : selector.NamesScopeOnly)
    (hscope : validateMemoryScope selector.scope = .ok ())
    (hall : ∀ m : MySql, ∀ env : Env, ∀ t, m.like = like → env.now 0 = now →
      (longTermStore m env).deleteMemories db selector env = (t, .ok ()) →
        (longTermStore m env).Cleared selector.scope.normalized now db t) :
    db.ListedInFull like selector now := by
  intro row hrow hcurrent
  -- no listing leaves the row out
  have hlisted : ∀ l, Paging.Listing Newer (db.selectedRows like selector now) l →
      row ∈ l.take 20 := by
    intro l hl
    by_contra hmissing
    obtain ⟨m, env, t, hlike, hnow, hrun, hnot⟩ :=
      exists_not_cleared hselector hscope hrow hcurrent hl hmissing
    exact hnot (hall m env t hlike hnow hrun)
  have hselected : row ∈ db.selectedRows like selector now :=
    (Paging.listing_mergeSort newer_weakOrder _).perm.mem_iff.mp
      (List.mem_of_mem_take (hlisted _ (Paging.listing_mergeSort newer_weakOrder _)))
  refine ⟨(mem_selectedRows_iff hselector hrow hcurrent).mp hselected, ?_⟩
  by_contra hmany
  have hcount := Paging.ahead_add_tied newer_weakOrder (db.selectedRows like selector now) row
  obtain ⟨l, hl, hmissing⟩ := Shortlist.exists_notMem_take newer_weakOrder
    (db.nodup_selectedRows like selector now) hselected (hcount ▸ Nat.not_le.mp hmany)
  exact hmissing (hlisted l hl)

/-- **A scope that is listed in full is cleared.** -/
theorem cleared_of_listedInFull {selector : MemorySelector} {now : ℤ} {t : MySQLMemoryStore}
    (hselector : selector.NamesScopeOnly) (hfull : db.ListedInFull m.like selector now)
    (hnow : env.now 0 = now)
    (hrun : (longTermStore m env).deleteMemories db selector env = (t, .ok ())) :
    (longTermStore m env).Cleared selector.scope.normalized now db t := by
  obtain ⟨items, hlist, -⟩ := LongTermStore.deletes_of_ok hrun
  refine (LongTermStore.cleared_iff hlist hrun).mpr fun item hitem hcurrent => ?_
  obtain ⟨row, hrow, rfl⟩ := List.mem_map.mp hitem
  obtain ⟨htext, hcount⟩ := hfull row hrow hcurrent
  have hfits := le_of_eq_of_le (Paging.ahead_add_tied newer_weakOrder _ row) hcount
  rw [listed_eq hlist, hnow, hselector.limit]
  exact List.mem_map_of_mem (Shortlist.mem_take_of_le newer_weakOrder (m.listing _)
    ((mem_selectedRows_iff hselector hrow hcurrent).mpr htext) hfits)

end MySQLMemoryStore

/-- **When clearing a scope clears it.** The store in memory is always cleared, for every
content, every scope and every run that ends without an error. The store in MySQL is cleared in
every such run if and only if all that is current in the scope is listed in full: it has the text
of the query, and no more than twenty of the rows that are selected are not older than it. -/
theorem clears_scope_iff {selector : MemorySelector} (hselector : selector.NamesScopeOnly)
    (hscope : validateMemoryScope selector.scope = .ok ()) (now : ℤ) :
    (∀ (store : InMemoryStore) (env : Env) (t : InMemoryStore), env.now 0 = now →
      (InMemoryStore.longTermStore env).deleteMemories store selector env = (t, .ok ()) →
        (InMemoryStore.longTermStore env).Cleared selector.scope.normalized now store t) ∧
    ∀ (db : MySQLMemoryStore) (like : String → String → Bool),
      (∀ (m : MySql) (env : Env) (t : MySQLMemoryStore), m.like = like → env.now 0 = now →
        (MySQLMemoryStore.longTermStore m env).deleteMemories db selector env = (t, .ok ()) →
          (MySQLMemoryStore.longTermStore m env).Cleared selector.scope.normalized now db t) ↔
        db.ListedInFull like selector now := by
  refine ⟨fun store env t hnow hrun => ?_, fun db like => ⟨fun hall => ?_, fun hfull => ?_⟩⟩
  · obtain ⟨items, hlist, -⟩ := LongTermStore.deletes_of_ok hrun
    refine (LongTermStore.cleared_iff hlist hrun).mpr fun item hitem hcurrent => ?_
    exact InMemoryStore.mem_listed_of_current hselector hlist hitem (hnow ▸ hcurrent)
  · exact MySQLMemoryStore.listedInFull_of_cleared hselector hscope hall
  · rintro m env t rfl hnow hrun
    exact MySQLMemoryStore.cleared_of_listedInFull hselector hfull hnow hrun

open MySQLMemoryStore

/-- A note about a cluster. -/
def noteRow (id : String) : AgentLongTermMemoryModel where
  id
  tenantId := "acme"
  teamId := "sre"
  clusterId := "prod"
  memoryType := "fact"
  content := "note"
  status := .active
  vectorId := id

/-- A request to clear the cluster. -/
def clearProd : MemorySelector :=
  memorySelectorFromQuery { tenantId := "acme", teamId := "sre", clusterId := "prod" }

theorem clearProd_namesScopeOnly : clearProd.NamesScopeOnly := ⟨rfl, rfl, rfl, rfl⟩

/-- A database with one note. -/
def oneNoteRow : MySQLMemoryStore :=
  { MySQLMemoryStore.empty with
    longTerm := [noteRow "m1"]
    longTerm_nodup := List.nodup_singleton _ }

/-- A database that finds every text and does not fail. -/
def quietDatabase : MySql :=
  .giving (fun _ _ => true) (Paging.listing_mergeSort newer_weakOrder [])

/-- The note is deleted, and nothing else is left. -/
theorem clears_scope_oneNoteRow :
    ∃ t, (longTermStore quietDatabase (lateEnv 0 0)).deleteMemories oneNoteRow clearProd
        (lateEnv 0 0) = (t, .ok ()) ∧
      (longTermStore quietDatabase (lateEnv 0 0)).Cleared clearProd.scope.normalized 0
        oneNoteRow t := by
  have hfull : oneNoteRow.ListedInFull (fun _ _ => true) clearProd 0 := by
    intro row hrow _
    obtain rfl := List.mem_singleton.mp hrow
    exact ⟨by decide, by decide⟩
  obtain ⟨t, ht⟩ : ∃ t, (longTermStore quietDatabase (lateEnv 0 0)).deleteMemories oneNoteRow
      clearProd (lateEnv 0 0) = (t, .ok ()) :=
    exists_deleteMemories (fun _ => rfl) (ticks_lateEnv 0 0) (fun _ => rfl) (by decide) (by decide)
  exact ⟨t, ht, ((clears_scope_iff clearProd_namesScopeOnly (by decide) 0).2 oneNoteRow
    (fun _ _ => true)).mpr hfull quietDatabase (lateEnv 0 0) t rfl rfl ht⟩

/-- A database with twenty-one notes. -/
def twentyOneRows : MySQLMemoryStore :=
  { MySQLMemoryStore.empty with
    longTerm := (List.range 21).map fun k => noteRow (toString k)
    longTerm_nodup := by decide +kernel }

/-- **Of twenty-one notes one is left**, for no limit is a limit of twenty. -/
theorem twentyOneRows_not_cleared :
    ∃ m env t, (longTermStore m env).deleteMemories twentyOneRows clearProd env =
        (t, .ok ()) ∧
      ¬ (longTermStore m env).Cleared clearProd.scope.normalized 0
        twentyOneRows t := by
  have hlisting : Paging.Listing Newer (twentyOneRows.selectedRows (fun _ _ => true) clearProd 0)
      twentyOneRows.longTerm := by
    refine ⟨?_, ?_⟩
    · have hall : twentyOneRows.selectedRows (fun _ _ => true) clearProd 0 =
          twentyOneRows.longTerm := by decide +kernel
      rw [hall]
    · decide +kernel
  have hlast : noteRow "20" ∈ twentyOneRows.longTerm := by decide +kernel
  obtain ⟨m, env, t, -, -, hrun, hnot⟩ := exists_not_cleared
    clearProd_namesScopeOnly (by decide) hlast
    ⟨rfl, rfl, rfl, rfl, fun t ht => nomatch ht⟩ hlisting (by decide +kernel)
  exact ⟨m, env, t, hrun, hnot⟩

end MonitorSystem
