import MonitorSystem.Manager.MysqlWriter

/-!
# Whether tenants see each other's data in the store

Workers of several tenants push samples to one manager, which computes change rates
against the previous sample of the *host* and stores the rows under the *scope* – the
tenant, team and cluster – of the worker. The previous samples are kept by host id
alone. So two scopes that report the same host id share them: the rates stored for one
tenant are computed against the values of the other
(`Pipeline.tenants_share_previous_samples`).

As long as no other scope reports a host id of this scope, however, nothing of what
other scopes push can be seen: `Pipeline.noninterference` compares a run with the one
from which the pushes of all other scopes have been taken out, and finds the same
records in the queue and the same rows in the database.
-/

namespace MonitorSystem

open MysqlWriter

/-- A scope as the tables know it: tenant, team and cluster. -/
structure ScopeKey where
  tenant : String
  team : String
  cluster : String
  deriving DecidableEq, Repr

/-- The scope of a worker, less the server it is bound to. -/
def WorkerScope.scopeKey (s : WorkerScope) : ScopeKey := ⟨s.tenantId, s.teamId, s.clusterId⟩

/-- The path of a sample from `onDataReceived` to the database. -/
structure Pipeline where
  manager : HostManager
  last : LastSamples
  /-- For each push, what it handed to the write queue. -/
  samples : List (Option HostMonitoringData)
  /-- The records `writeToMysql` was called with, each with its statements. -/
  written : List (HostMonitoringData × List Insert)

namespace Pipeline

/-- The events of a run. Which samples the queue drops, in which order the writers take
the others and which of them get a connection is part of the run. -/
inductive Event where
  /-- A push: the message, the identity it carries, what the registry returns for it, and
  the time. -/
  | push (info : MonitorInfo) (identity : WorkerIdentity) (row : Option Registration) (now : ℤ)
  /-- The place of a push that is not made. -/
  | absent
  /-- A writer calls `writeToMysql` with the record of push `n`; it gets a connection or
  not. -/
  | write (n : ℕ) (connected : Bool)
  deriving DecidableEq, Repr

/-- The manager before the first push. -/
def init : Pipeline where
  manager := .init
  last := .init
  samples := []
  written := []

/-- One event. -/
def step (p : Platform) (s : Pipeline) : Event → Pipeline
  | .push info identity row now =>
    let r := s.manager.onDataReceived p info identity row now
    { s with manager := r.1, samples := s.samples ++ [r.2] }
  | .absent => { s with samples := s.samples ++ [none] }
  | .write n connected =>
    match s.samples[n]?.join with
    | some data =>
      if connected then
        let r := writeToMysql p s.last data
        { s with last := r.1, written := s.written ++ [(data, r.2)] }
      else s
    | none => s

/-- A run. -/
def run (p : Platform) (events : List Event) : Pipeline := events.foldl (step p) init

/-- The scope a push resolves to. -/
def Event.scopeKey : Event → Option ScopeKey
  | .push _ identity row _ => (resolveWorkerScope identity row).map WorkerScope.scopeKey
  | _ => none

/-- The host id a push reports. -/
def Event.host : Event → String
  | .push info _ _ _ => info.hostID
  | _ => ""

/-- The event without it, if it is a push that resolves to another scope. -/
def Event.erase (key : ScopeKey) (e : Event) : Event :=
  if e.scopeKey = none ∨ e.scopeKey = some key then e else .absent

/-- A record, if it is of the scope. -/
def keep (key : ScopeKey) (o : Option HostMonitoringData) : Option HostMonitoringData :=
  o.filter fun d => d.scope.scopeKey = key

/-- The records handed to the write queue for a scope, in order. -/
def enqueuedFor (key : ScopeKey) (s : Pipeline) : List HostMonitoringData :=
  s.samples.filterMap (keep key)

/-- The records written for a scope, each with its rows, in order. -/
def writtenFor (key : ScopeKey) (s : Pipeline) : List (HostMonitoringData × List Insert) :=
  s.written.filter fun w => w.1.scope.scopeKey = key

/-! ### Erasing the other scopes -/

theorem keep_keep (key : ScopeKey) (o : Option HostMonitoringData) :
    keep key (keep key o) = keep key o := by
  simp [keep, Option.filter_filter]

theorem keep_of_eq {key : ScopeKey} {d : HostMonitoringData} (h : d.scope.scopeKey = key) :
    keep key (some d) = some d := by
  simp [keep, h]

theorem keep_of_ne {key : ScopeKey} {d : HostMonitoringData} (h : d.scope.scopeKey ≠ key) :
    keep key (some d) = none := by
  simp [keep, h]

theorem Event.erase_eq_or (key : ScopeKey) (ev : Event) :
    ev.erase key = ev ∨ ev.erase key = .absent := by
  unfold Event.erase
  split
  · exact .inl rfl
  · exact .inr rfl

/-- **The relation between a run and its erasure**: on the hosts `H` of the scope the two
have the same previous samples, and the erased run has the scope's records and rows. -/
structure Erases (key : ScopeKey) (H : String → Prop) (s e : Pipeline) : Prop where
  perf : ∀ h, H h → s.manager.lastPerfSamples h = e.manager.lastPerfSamples h
  last : ∀ h, H h → s.last.forHost h = e.last.forHost h
  samples : e.samples = s.samples.map (keep key)
  hosts : ∀ d, some d ∈ s.samples → (d.scope.scopeKey = key ↔ H d.hostName)
  written : e.written = s.written.filter fun w => w.1.scope.scopeKey = key

variable {key : ScopeKey} {H : String → Prop} {s e : Pipeline} {p : Platform}

theorem Erases.init : Erases key H init init :=
  ⟨fun _ _ => rfl, fun _ _ => rfl, rfl, fun _ hd => (List.not_mem_nil hd).elim, rfl⟩

/-- The samples of both runs grow by one entry. -/
theorem Erases.append (h : Erases key H s e) {m m' : HostManager}
    {o o' : Option HostMonitoringData}
    (hperf : ∀ host, H host → m.lastPerfSamples host = m'.lastPerfSamples host)
    (ho : o' = keep key o) (hhost : ∀ d, o = some d → (d.scope.scopeKey = key ↔ H d.hostName)) :
    Erases key H { s with manager := m, samples := s.samples ++ [o] }
      { e with manager := m', samples := e.samples ++ [o'] } where
  perf := hperf
  last := h.last
  samples := by simp [h.samples, ho]
  hosts d hd := by
    rcases List.mem_append.mp hd with hold | hnew
    · exact h.hosts d hold
    · exact hhost d (List.mem_singleton.mp hnew).symm
  written := h.written

/-- A push that is dropped, or taken out, adds nothing. -/
theorem Erases.drop (h : Erases key H s e) {m m' : HostManager}
    (hm : m.lastPerfSamples = s.manager.lastPerfSamples)
    (hm' : m'.lastPerfSamples = e.manager.lastPerfSamples) :
    Erases key H { s with manager := m, samples := s.samples ++ [none] }
      { e with manager := m', samples := e.samples ++ [none] } := by
  refine h.append (fun host hH => ?_) rfl fun d hd => by cases hd
  rw [hm, hm']
  exact h.perf host hH

/-- A push. -/
theorem Erases.push (h : Erases key H s e) {info : MonitorInfo} {identity : WorkerIdentity}
    {row : Option Registration} {now : ℤ}
    (hev : ∀ k, (Event.push info identity row now).scopeKey = some k → info.hostID ≠ "" →
      (k = key ↔ H info.hostID)) :
    Erases key H (step p s (.push info identity row now))
      (step p e ((Event.push info identity row now).erase key)) := by
  -- a push that is dropped leaves both runs as they are
  by_cases hdrop : resolveWorkerScope identity row = none ∨ info.hostID = ""
  · have hd : ∀ m : HostManager, ∃ metrics,
        m.onDataReceived p info identity row now = ({ m with metrics }, none) :=
      fun m => HostManager.onDataReceived_of_dropped hdrop
    obtain ⟨metrics, hs⟩ := hd s.manager
    obtain ⟨metrics', he⟩ := hd e.manager
    rcases Event.erase_eq_or key (.push info identity row now) with herase | herase
    · rw [herase]
      simp only [step, hs, he]
      exact h.drop rfl rfl
    · rw [herase]
      simp only [step, hs]
      exact h.drop rfl rfl
  · obtain ⟨hres, hid⟩ := not_or.mp hdrop
    obtain ⟨scope, hscope⟩ := Option.ne_none_iff_exists'.mp hres
    have hd := fun m : HostManager =>
      @HostManager.onDataReceived_of_resolved p m info identity row now scope hscope hid
    have hH := hev scope.scopeKey (by simp [Event.scopeKey, hscope]) hid
    simp only [step, hd s.manager]
    by_cases hkey : scope.scopeKey = key
    · -- the scope's own push: both runs compute the same record
      have hsame : s.manager.lastPerfSamples info.hostID = e.manager.lastPerfSamples info.hostID :=
        h.perf _ (hH.mp hkey)
      have herase : (Event.push info identity row now).erase key =
          .push info identity row now := by simp [Event.erase, Event.scopeKey, hscope, hkey]
      rw [herase]
      simp only [hd e.manager]
      refine h.append (fun host hhost => ?_) ?_ fun d hsome => ?_
      · rcases eq_or_ne host info.hostID with rfl | hne
        · simp
        · simp [hne, h.perf host hhost]
      · rw [hsame]
        exact (keep_of_eq hkey).symm
      · obtain rfl := Option.some.inj hsome
        exact hH
    · -- a push of another scope, on a host the scope does not report
      have herase : (Event.push info identity row now).erase key = .absent := by
        simp [Event.erase, Event.scopeKey, hscope, hkey]
      rw [herase]
      refine h.append (fun host hhost => ?_) ?_ fun d hsome => ?_
      · have hne : host ≠ info.hostID := by
          rintro rfl
          exact hkey (hH.mpr hhost)
        exact (Function.update_of_ne hne _ _).trans (h.perf host hhost)
      · exact (keep_of_ne hkey).symm
      · obtain rfl := Option.some.inj hsome
        exact hH

/-- A write. -/
theorem Erases.write (h : Erases key H s e) (n : ℕ) (connected : Bool) :
    Erases key H (step p s (.write n connected)) (step p e (.write n connected)) := by
  have hget : e.samples[n]?.join = (s.samples[n]?.join).filter
      fun d => d.scope.scopeKey = key := by
    rw [h.samples, List.getElem?_map]
    cases s.samples[n]? with
    | none => rfl
    | some o => rfl
  cases hs : s.samples[n]?.join with
  | none => simpa [step, hs, hget] using h
  | some data =>
    have hmem : some data ∈ s.samples :=
      List.mem_of_getElem? (Option.join_eq_some_iff.mp hs)
    have hH := h.hosts data hmem
    cases connected with
    | false => cases he : e.samples[n]?.join <;> simpa [step, hs, he] using h
    | true =>
      have hw := fun l => writeToMysql_eq_keyed p l data
      have hforHost := fun l => congrArg Prod.fst (hw l)
      have hrows := fun l => congrArg Prod.snd (hw l)
      simp only [Keyed.step] at hforHost hrows
      by_cases hkey : data.scope.scopeKey = key
      · -- the scope's own record: both runs have the same samples for its host
        have hsame := h.last data.hostName (hH.mp hkey)
        simp only [step, hs, hget, Option.filter_some, hkey, decide_true, if_true]
        refine ⟨h.perf, fun host hhost => ?_, h.samples, h.hosts, ?_⟩
        · simp only
          rw [hforHost, hforHost]
          rcases eq_or_ne host data.hostName with rfl | hne
          · simp [hsame]
          · simp [hne, h.last host hhost]
        · simp only [h.written, List.filter_append, hrows, hsame]
          simp [hkey]
      · -- a record of another scope: its host is none of the scope's hosts
        have hhost : ¬H data.hostName := fun hh => hkey (hH.mpr hh)
        simp only [step, hs, hget, Option.filter_some, hkey, decide_false, if_true]
        refine ⟨h.perf, fun host hh => ?_, h.samples, h.hosts, ?_⟩
        · have hne : host ≠ data.hostName := fun heq => hhost (heq ▸ hh)
          simp only
          rw [hforHost, Function.update_of_ne hne]
          exact h.last host hh
        · simp [h.written, hkey]

/-- **Erasure is kept by every event** of a run in which the hosts `H` are those of the
scope. -/
theorem Erases.step (h : Erases key H s e) {ev : Event}
    (hev : ∀ k, ev.scopeKey = some k → ev.host ≠ "" → (k = key ↔ H ev.host)) :
    Erases key H (step p s ev) (Pipeline.step p e (ev.erase key)) := by
  cases ev with
  | push info identity row now => exact h.push hev
  | absent => exact h.drop rfl rfl
  | write n connected => exact h.write n connected

/-! ### Noninterference -/

/-- No push of another scope reports a host id that a push of this scope reports. -/
def HostsApart (key : ScopeKey) (events : List Event) : Prop :=
  ∀ ev ∈ events, ∀ ev' ∈ events, ev.scopeKey = some key →
    ev'.scopeKey ≠ none → ev'.scopeKey ≠ some key → ev.host = ev'.host → ev.host = ""

instance (key : ScopeKey) (events : List Event) : Decidable (HostsApart key events) :=
  inferInstanceAs (Decidable (∀ ev ∈ events, ∀ ev' ∈ events, _))

/-- The host ids the pushes of a scope report. -/
def HostOf (key : ScopeKey) (events : List Event) (host : String) : Prop :=
  ∃ ev ∈ events, ev.scopeKey = some key ∧ ev.host = host

theorem erases_run {events : List Event}
    (hev : ∀ ev ∈ events, ∀ k, ev.scopeKey = some k → ev.host ≠ "" → (k = key ↔ H ev.host)) :
    ∀ {s e : Pipeline}, Erases key H s e →
      Erases key H (events.foldl (Pipeline.step p) s)
        ((events.map (Event.erase key)).foldl (Pipeline.step p) e) := by
  induction events with
  | nil => exact id
  | cons ev events ih =>
    intro s e h
    exact ih (fun ev' hmem => hev ev' (List.mem_cons_of_mem ev hmem))
      (h.step (hev ev List.mem_cons_self))

/-- **A scope whose hosts are its own is not disturbed by the others.** For every run,
if no push of another scope reports a host id that a push of this scope reports, then
the records handed to the write queue for the scope, and the rows written for it, are
those of the run from which the pushes of all other scopes have been taken out. -/
theorem noninterference (p : Platform) (key : ScopeKey) (events : List Event)
    (hapart : HostsApart key events) :
    enqueuedFor key (run p events) = enqueuedFor key (run p (events.map (Event.erase key))) ∧
      writtenFor key (run p events) = writtenFor key (run p (events.map (Event.erase key))) := by
  have hhost : ∀ ev ∈ events, ∀ k, ev.scopeKey = some k → ev.host ≠ "" →
      (k = key ↔ HostOf key events ev.host) := by
    intro ev hmem k hk hne
    constructor
    · rintro rfl
      exact ⟨ev, hmem, hk, rfl⟩
    · rintro ⟨ev', hmem', hk', heq⟩
      by_contra hother
      have hkey : ev.scopeKey ≠ some key := by simpa [hk] using hother
      exact hne (heq ▸ hapart ev' hmem' ev hmem hk' (by simp [hk]) hkey heq)
  have h : Erases key (HostOf key events) (run p events)
      (run p (events.map (Event.erase key))) := erases_run hhost .init
  constructor
  · unfold enqueuedFor
    rw [h.samples, List.filterMap_map]
    exact List.filterMap_congr fun o _ => (keep_keep key o).symm
  · unfold writtenFor
    rw [h.written, List.filter_filter]
    simp

/-- A push of a worker registered for a tenant. -/
def tenantPush (tenant hostname : String) (cpuPercent : ℚ) (now : ℤ) : Event :=
  .push
    { hostInfo := some ⟨hostname, "10.0.0.1"⟩
      cpuStat := [{ cpuName := "all", cpuPercent := cpuPercent }]
      diskInfo := [{ name := "sda", utilPercent := cpuPercent }] }
    ⟨tenant ++ "-worker", "token"⟩
    (some ⟨some tenant, some "team", some "cluster", 1, some "token"⟩) now

/-- Two tenants, each with one push from a host of the given name, and their writes. -/
def twoTenants (hostA hostB : String) : List Event :=
  [tenantPush "a" hostA 50 0, .write 0 true, tenantPush "b" hostB 100 1, .write 1 true]

/-- The scope of the second tenant. -/
def tenantB : ScopeKey := ⟨"b", "team", "cluster"⟩

theorem noninterference_twoTenants :
    HostsApart tenantB (twoTenants "web" "db") ∧
    enqueuedFor tenantB (run .exact (twoTenants "web" "db")) =
      enqueuedFor tenantB (run .exact ((twoTenants "web" "db").map (Event.erase tenantB))) ∧
    writtenFor tenantB (run .exact (twoTenants "web" "db")) =
      writtenFor tenantB (run .exact ((twoTenants "web" "db").map (Event.erase tenantB))) :=
  have hapart : HostsApart tenantB (twoTenants "web" "db") := by decide +kernel
  ⟨hapart, noninterference .exact tenantB _ hapart⟩

/-- **Tenants share previous samples**: the first sample a tenant pushes is stored with a
change rate of 100 %, because a host of the same name and address in another tenant has
pushed before. -/
theorem tenants_share_previous_samples :
    (enqueuedFor tenantB (run .exact (twoTenants "web" "web"))).map (·.cpuPercentRate) = [1] ∧
    (enqueuedFor tenantB (run .exact ((twoTenants "web" "web").map (Event.erase tenantB)))).map
      (·.cpuPercentRate) = [0] ∧
    writtenFor tenantB (run .exact (twoTenants "web" "web")) ≠
      writtenFor tenantB (run .exact ((twoTenants "web" "web").map (Event.erase tenantB))) := by
  decide +kernel

end Pipeline

end MonitorSystem
