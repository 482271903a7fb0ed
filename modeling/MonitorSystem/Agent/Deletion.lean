import MonitorSystem.Agent.Sessions
import MonitorSystem.Library.Runs

/-!
# Deleted memories stay deleted

A long-term memory is deleted in two phases: it is marked as being deleted, its vector is
removed from the index, and then it is marked as deleted. The index may fail in between,
and may go on returning the id of the memory for ever.

Nothing depends on that. `LoadContext` takes from the index only ids, and returns the
memories among them that the store lists as active; and no operation takes a memory out of
the two states (`Withdrawn`): deletion and its retry write these states only, and the
extraction writes under new ids. What is needed of the environment is that the ids are new
(`Env.FreshIds`).
-/

namespace MonitorSystem

open InMemoryStore

/-! ### Runs of the manager -/

/-- A call of the manager. -/
inductive ManagerCall where
  | loadContext (scope : MemoryScope) (query : String)
  | appendTurn (scope : MemoryScope) (userMessage assistantMessage : String)
  | summarizeSession (scope : MemoryScope)
  | extractDurableMemories (scope : MemoryScope)
  | setPolicy (level : ScopeLevel) (scope : MemoryScope) (policy : MemoryPolicy)
  | listMemories (selector : MemorySelector)
  | deleteMemories (selector : MemorySelector)
  | retryDeletingMemories (selector : MemorySelector)

/-- **The store that a call leaves**, whether it ends well or with an error. -/
def ManagerCall.step (cfg : MemoryConfig) (store : InMemoryStore) (call : ManagerCall × Env) :
    Option InMemoryStore :=
  match call.1 with
  | .loadContext _ _ => some store
  | .appendTurn scope u a => some (MonitorSystem.appendTurn cfg store scope u a call.2.now).1
  | .summarizeSession scope => some (MonitorSystem.summarizeSession cfg store scope call.2.now).1
  | .extractDurableMemories scope =>
    some (MonitorSystem.extractDurableMemories cfg store scope call.2).1
  | .setPolicy level scope policy => some (setMemoryPolicy store level scope policy).1
  | .listMemories _ => some store
  | .deleteMemories selector => some (MonitorSystem.deleteMemories store selector call.2).1
  | .retryDeletingMemories selector =>
    some (MonitorSystem.retryDeletingMemories store selector call.2).1

/-- The id is that of a memory of the store. -/
def InMemoryStore.HasId (store : InMemoryStore) (id : String) : Prop :=
  ∃ item ∈ store.longTerm, item.id = id

/-- **The ids of a call are new**: extracted candidates carry none, and those that are made
differ from each other and from those in use. -/
structure Env.FreshIds (store : InMemoryStore) (env : Env) : Prop where
  candidate : ∀ scope messages, ∀ c ∈ env.extract scope messages, c.id = ""
  injective : Function.Injective env.uuid
  unused : ∀ k, ¬ store.HasId (env.uuid k)

/-! ### Memories that are being deleted or deleted -/

/-- **The memory is being deleted, or deleted.** -/
def Withdrawn (store : InMemoryStore) (id : String) : Prop :=
  ∃ item ∈ store.longTerm, item.id = id ∧ (item.status = .deleting ∨ item.status = .deleted)

/-- What was withdrawn stays so. -/
def KeepsWithdrawn (s t : InMemoryStore) : Prop := ∀ id, Withdrawn s id → Withdrawn t id

namespace KeepsWithdrawn

variable {s t u : InMemoryStore}

theorem refl (s : InMemoryStore) : KeepsWithdrawn s s := fun _ h => h

theorem trans (h : KeepsWithdrawn s t) (h' : KeepsWithdrawn t u) : KeepsWithdrawn s u :=
  fun id hid => h' id (h id hid)

theorem of_longTerm_eq (h : t.longTerm = s.longTerm) : KeepsWithdrawn s t := by
  intro id hid
  unfold Withdrawn at hid ⊢
  rwa [h]

end KeepsWithdrawn

section Store

variable {store store' : InMemoryStore} {item : LongTermMemory}

theorem mem_put {items : List LongTermMemory} {a : LongTermMemory} :
    a ∈ put items item ↔ a = item ∨ (a ∈ items ∧ a.id ≠ item.id) := by
  simp [put]

/-- Marking a memory as being deleted or deleted withdraws it. -/
theorem keepsWithdrawn_mark {id : String} {status : LongTermStatus} {now : ℤ}
    (hstatus : status = .deleting ∨ status = .deleted)
    (h : store.markLongTermStatus id status now = .ok store') : KeepsWithdrawn store store' := by
  unfold markLongTermStatus at h
  split at h
  · cases h
  · next item hfind =>
    obtain rfl := Except.ok.inj h
    rintro id' ⟨other, hmem, rfl, hwithdrawn⟩
    by_cases hid : other.id = item.id
    · exact ⟨{ item with status, updatedAt := now }, mem_put.mpr (.inl rfl), hid.symm, hstatus⟩
    · exact ⟨other, mem_put.mpr (.inr ⟨hmem, hid⟩), rfl, hwithdrawn⟩

/-- Saving a memory under a new id withdraws nothing and restores nothing. -/
theorem keepsWithdrawn_save {now : ℤ} {uuid : String} {saved : LongTermMemory}
    (hid : item.id = "") (hnew : ¬ store.HasId uuid)
    (h : store.saveLongTermMemory item now uuid = .ok (store', saved)) :
    KeepsWithdrawn store store' ∧ ∀ id, store'.HasId id → id = uuid ∨ store.HasId id := by
  have hprepared : (prepared item now uuid).id = uuid := by simp [prepared, hid]
  unfold saveLongTermMemory at h
  cases hv : validateMemoryScope item.scope.normalized with
  | error e =>
    rw [hv] at h
    cases h
  | ok u =>
    rw [hv] at h
    obtain ⟨rfl, rfl⟩ := Prod.mk.inj (Except.ok.inj h)
    constructor
    · rintro id ⟨other, hmem, rfl, hwithdrawn⟩
      have hne : other.id ≠ uuid := fun heq => hnew ⟨other, hmem, heq⟩
      exact ⟨other, mem_put.mpr (.inr ⟨hmem, by rwa [hprepared]⟩), rfl, hwithdrawn⟩
    · rintro id ⟨other, hmem, rfl⟩
      rcases mem_put.mp hmem with rfl | ⟨hmem, -⟩
      · exact .inl hprepared
      · exact .inr ⟨other, hmem, rfl⟩

@[simp] theorem recordEvent_longTerm (env : Env) (k : ℕ) (event : MemoryEvent) :
    (recordEvent env k store event).longTerm = store.longTerm := by
  unfold recordEvent
  split <;> rfl

end Store

/-! ### Every operation keeps them -/

section Operations

variable {cfg : MemoryConfig} {store : InMemoryStore}

theorem keepsWithdrawn_recordEvent (env : Env) (k : ℕ) (event : MemoryEvent) :
    KeepsWithdrawn store (recordEvent env k store event) :=
  .of_longTerm_eq (recordEvent_longTerm env k event)

theorem hasId_recordEvent {env : Env} {k : ℕ} {event : MemoryEvent} {id : String} :
    (recordEvent env k store event).HasId id ↔ store.HasId id := by
  unfold HasId
  rw [recordEvent_longTerm]

/-- **The first loop of a deletion** keeps what marking one of the memories keeps. -/
theorem markDeleting_induct {P : InMemoryStore → Prop} {env : Env} {items : List LongTermMemory}
    (hmark : ∀ item ∈ items, ∀ s now s', P s →
      s.markLongTermStatus item.id .deleting now = .ok s' → P s') (k : ℕ) (h : P store) :
    P (markDeleting env k store items).1 := by
  induction items generalizing k store with
  | nil => exact h
  | cons item items ih =>
    obtain ⟨hitem, hitems⟩ := List.forall_mem_cons.mp hmark
    rw [markDeleting]
    split
    · exact h
    · next store' heq => exact ih hitems (k + 1) (hitem store _ store' h heq)

/-- **The second loop** keeps what marking and recording keep. -/
theorem markDeleted_induct {P : InMemoryStore → Prop} {env : Env} {items : List LongTermMemory}
    (hmark : ∀ item ∈ items, ∀ s now s', P s →
      s.markLongTermStatus item.id .deleted now = .ok s' → P s')
    (hrecord : ∀ s k event, P s → P (recordEvent env k s event)) (action detail : String) (k : ℕ)
    (h : P store) : P (markDeleted env action detail k store items).1 := by
  induction items generalizing k store with
  | nil => exact h
  | cons item items ih =>
    obtain ⟨hitem, hitems⟩ := List.forall_mem_cons.mp hmark
    rw [markDeleted]
    split
    · exact h
    · next store' heq =>
      exact ih hitems (k + 2) (hrecord store' k _ (hitem store _ store' h heq))

/-- **A deletion** keeps what marking a selected memory and recording keep. -/
theorem deleteMemories_induct {P : InMemoryStore → Prop} {selector : MemorySelector} {env : Env}
    (hmark : ∀ item ∈ store.selected selector (env.now 0), ∀ status : LongTermStatus,
      status = .deleting ∨ status = .deleted → ∀ s now s', P s →
        s.markLongTermStatus item.id status now = .ok s' → P s')
    (hrecord : ∀ s k event, P s → P (recordEvent env k s event)) (h : P store) :
    P (deleteMemories store selector env).1 := by
  unfold deleteMemories
  split
  · exact h
  · next hscope =>
    rw [listLongTermMemories_eq store hscope]
    generalize hitems : limited selector.limit _ = items
    have hselected : ∀ item ∈ items, item ∈ store.selected selector (env.now 0) := by
      rintro item hitem
      rw [← hitems] at hitem
      exact env.sorting.mem_sort.mp (mem_limited hitem)
    have hfirst : P (markDeleting env 1 store items).1 := markDeleting_induct
      (fun item hitem => hmark item (hselected item hitem) _ (.inl rfl)) 1 h
    simp only
    split
    · next store' e heq => rwa [heq] at hfirst
    · next store' heq =>
      rw [heq] at hfirst
      split
      · exact hfirst
      · exact markDeleted_induct (fun item hitem => hmark item (hselected item hitem) _ (.inr rfl))
          hrecord _ _ _ hfirst

/-- The loop of the extraction, whose remaining ids are still new. -/
theorem keepsWithdrawn_saveCandidates (scope : MemoryScope) (env : Env)
    (hinj : Function.Injective env.uuid) (k : ℕ) {candidates : List LongTermMemory}
    (hids : ∀ c ∈ candidates, c.id = "") (hnew : ∀ j, k ≤ j → ¬ store.HasId (env.uuid (2 * j))) :
    KeepsWithdrawn store (saveCandidates scope env k store candidates).1 := by
  induction candidates generalizing k store with
  | nil => exact .refl store
  | cons candidate candidates ih =>
    obtain ⟨hid, hids⟩ := List.forall_mem_cons.mp hids
    rw [saveCandidates]
    split
    · split
      · exact .refl store
      · next store' saved hsave =>
        obtain ⟨hkeep, hgrown⟩ := keepsWithdrawn_save hid (hnew k (Nat.le_refl k)) hsave
        split
        · exact hkeep
        · refine hkeep.trans ((keepsWithdrawn_recordEvent env k _).trans (ih (k + 1) hids ?_))
          intro j hj hhas
          rcases hgrown _ (hasId_recordEvent.mp hhas) with heq | hold
          · -- the id of this round is not used again
            have := hinj heq
            omega
          · exact hnew j (by omega) hold
    · exact ih (k + 1) hids fun j hj => hnew j (by omega)

theorem keepsWithdrawn_extract {env : Env} (h : env.FreshIds store) (scope : MemoryScope) :
    KeepsWithdrawn store (extractDurableMemories cfg store scope env).1 := by
  unfold extractDurableMemories
  split
  · exact .refl store
  · simp only
    split
    · exact .refl store
    · split
      · exact .refl store
      · exact keepsWithdrawn_saveCandidates _ env h.injective 0 (h.candidate _ _)
          fun j _ => h.unused _

theorem keepsWithdrawn_delete (selector : MemorySelector) (env : Env) :
    KeepsWithdrawn store (deleteMemories store selector env).1 :=
  deleteMemories_induct
    (fun _ _ _ hstatus _ _ _ h heq => h.trans (keepsWithdrawn_mark hstatus heq))
    (fun _ k event h => h.trans (keepsWithdrawn_recordEvent env k event)) (.refl store)

theorem keepsWithdrawn_retry (selector : MemorySelector) (env : Env) :
    KeepsWithdrawn store (retryDeletingMemories store selector env).1 := by
  unfold retryDeletingMemories
  split
  · exact .refl store
  · split
    · exact .refl store
    · split
      · exact .refl store
      · exact markDeleted_induct
          (fun _ _ _ _ _ h heq => h.trans (keepsWithdrawn_mark (.inr rfl) heq))
          (fun _ k event h => h.trans (keepsWithdrawn_recordEvent env k event)) _ _ _ (.refl store)

theorem longTerm_appendTurn (scope : MemoryScope) (u a : String) (now : ℕ → ℤ) :
    (appendTurn cfg store scope u a now).1.longTerm = store.longTerm := by
  cases h : validateSessionScope scope with
  | error e => rw [appendTurn_refused h]
  | ok _ =>
    obtain ⟨store', heq, hchanged⟩ := appendTurn_eq cfg store h u a now
    rw [heq, hchanged.longTerm]

theorem longTerm_summarizeSession (scope : MemoryScope) (now : ℕ → ℤ) :
    (summarizeSession cfg store scope now).1.longTerm = store.longTerm := by
  cases h : validateSessionScope scope with
  | error e => rw [summarizeSession_refused h]
  | ok _ =>
    obtain ⟨store', heq, ⟨rfl, -⟩ | ⟨session, -, hchanged⟩⟩ := summarizeSession_eq cfg store h now
    · rw [heq]
    · rw [heq, hchanged.longTerm]

theorem longTerm_setMemoryPolicy (level : ScopeLevel) (scope : MemoryScope)
    (policy : MemoryPolicy) :
    (setMemoryPolicy store level scope policy).1.longTerm = store.longTerm := by
  unfold setMemoryPolicy
  split <;> rfl

/-- **Every call of the manager keeps what was withdrawn.** -/
theorem keepsWithdrawn_step {call : ManagerCall × Env} {t : InMemoryStore}
    (hfresh : call.2.FreshIds store) (hstep : ManagerCall.step cfg store call = some t) :
    KeepsWithdrawn store t := by
  obtain ⟨call, env⟩ := call
  cases call with
  | loadContext scope query =>
    obtain rfl := Option.some.inj hstep
    exact .refl store
  | appendTurn scope u a =>
    obtain rfl := Option.some.inj hstep
    exact .of_longTerm_eq (longTerm_appendTurn scope u a _)
  | summarizeSession scope =>
    obtain rfl := Option.some.inj hstep
    exact .of_longTerm_eq (longTerm_summarizeSession scope _)
  | extractDurableMemories scope =>
    obtain rfl := Option.some.inj hstep
    exact keepsWithdrawn_extract hfresh scope
  | setPolicy level scope policy =>
    obtain rfl := Option.some.inj hstep
    exact .of_longTerm_eq (longTerm_setMemoryPolicy level scope policy)
  | listMemories selector =>
    obtain rfl := Option.some.inj hstep
    exact .refl store
  | deleteMemories selector =>
    obtain rfl := Option.some.inj hstep
    exact keepsWithdrawn_delete selector env
  | retryDeletingMemories selector =>
    obtain rfl := Option.some.inj hstep
    exact keepsWithdrawn_retry selector env

/-! ### What a withdrawn memory cannot do -/

/-- A withdrawn memory is not active. -/
theorem Withdrawn.not_active {id : String} (h : Withdrawn store id) {item : LongTermMemory}
    (hitem : item ∈ store.longTerm) (hid : item.id = id) : item.status ≠ .active := by
  obtain ⟨other, hother, rfl, hwithdrawn⟩ := h
  obtain rfl := eq_of_id_eq hitem hother hid
  rcases hwithdrawn with h | h <;> simp [h]

/-- A withdrawn memory is in no context. -/
theorem Withdrawn.not_loaded {id : String} (h : Withdrawn store id) {scope : MemoryScope}
    {query : String} {env : Env} {ctx : MemoryContext}
    (hload : loadContext cfg store scope query env = .ok ctx) {m : LongTermMemory}
    (hm : m ∈ ctx.longTerm) : m.id ≠ id := by
  obtain ⟨item, hitem, hor⟩ := mem_longTerm_of_loadContext hload hm
  have hid : m.id = item.id := by rcases hor with rfl | rfl <;> rfl
  cases hv : validateSessionScope scope with
  | error e =>
    rw [loadContext_refused hv] at hload
    cases hload
  | ok _ =>
    have hscope := validateMemoryScope_normalized_of_session hv
    obtain ⟨hmem, -, -, -, hactive, -⟩ := (mem_recallable_iff hscope).mp hitem
    intro heq
    exact h.not_active hmem (hid.symm.trans heq) hactive

end Operations

/-! ### Every run -/

/-- **Deletion is final.** From any state in which a memory is being deleted or deleted, and
in every run of calls whose ids are new, whatever the index answers and whatever cannot be
recorded: the memory stays in one of these states, it does not become active, and no
context holds it, for any scope and any query. -/
theorem deletion_final (cfg : MemoryConfig) {s t : InMemoryStore} {id : String}
    (h : Withdrawn s id) {calls : List (ManagerCall × Env)}
    (hfresh : Runs.Along (ManagerCall.step cfg) (fun s call => call.2.FreshIds s) s calls)
    (hrun : Runs.run (ManagerCall.step cfg) s calls = some t) :
    Withdrawn t id ∧ (∀ item ∈ t.longTerm, item.id = id → item.status ≠ .active) ∧
      ∀ scope query env ctx, loadContext cfg t scope query env = .ok ctx →
        ∀ m ∈ ctx.longTerm, m.id ≠ id := by
  have ht : Withdrawn t id := Runs.run_invariant_along
    (fun s call t hs hf hstep => keepsWithdrawn_step hf hstep id hs) h hfresh hrun
  exact ⟨ht, fun item hitem hid => ht.not_active hitem hid,
    fun scope query env ctx hload m hm => ht.not_loaded hload hm⟩

/-- A store with one memory, whose deletion has begun. -/
def oneDeleting : InMemoryStore where
  sessions _ := none
  policies _ := none
  longTerm := [{
    id := "m1", scope := { tenantId := "acme", teamId := "sre" }, content := "note"
    status := .deleting, vectorId := "m1" }]
  events := []
  sessions_stored := InMemoryStore.new.sessions_stored
  longTerm_nodup := List.nodup_singleton _

theorem quietEnv_freshIds : quietEnv.FreshIds oneDeleting := by
  refine ⟨fun _ _ c hc => (nomatch hc), fun i j hij => ?_, fun k => ?_⟩
  · have := congrArg (fun s : String => s.toList.length) hij
    simpa [quietEnv] using this
  · rintro ⟨item, hitem, hid⟩
    obtain rfl := List.mem_singleton.mp hitem
    have := congrArg String.toList hid
    simp [quietEnv, List.replicate_succ] at this

/-- The memories are listed, and the deletion is tried again. -/
def listAndRetry : List (ManagerCall × Env) :=
  [(.listMemories { scope := { tenantId := "acme", teamId := "sre" } }, quietEnv),
    (.retryDeletingMemories { scope := { tenantId := "acme", teamId := "sre" } }, quietEnv)]

theorem oneDeleting_final :
    ∃ t, Runs.run (ManagerCall.step {}) oneDeleting listAndRetry = some t ∧
      Withdrawn t "m1" ∧ (∀ item ∈ t.longTerm, item.id = "m1" → item.status ≠ .active) ∧
        ∀ scope query env ctx, loadContext {} t scope query env = .ok ctx →
          ∀ m ∈ ctx.longTerm, m.id ≠ "m1" := by
  have hfresh : Runs.Along (ManagerCall.step {}) (fun s call => call.2.FreshIds s) oneDeleting
      listAndRetry := by
    refine Runs.along_cons.mpr ⟨quietEnv_freshIds, fun t ht => ?_⟩
    obtain rfl := Option.some.inj ht
    exact Runs.along_cons.mpr ⟨quietEnv_freshIds, fun _ _ => trivial⟩
  exact ⟨_, rfl, deletion_final {} ⟨_, List.mem_cons_self, rfl, .inl rfl⟩ hfresh rfl⟩

end MonitorSystem
