import MonitorSystem.Library.Successive
import MonitorSystem.Manager.StoredRows

/-!
# The rows of one name in a detail table

`HostManager::writeToMysql` (`manager/src/HostManager.cpp`) writes the interfaces and the
database instances of a record in the same way: each entry is known by its name, its row is
computed against what is remembered under this name and this host, and its own sample takes
that place. A `DetailSeries` is one of these tables with how it is written. The rows of one name
of one host are then made of the reports of this name alone (`DetailSeries.rows_eq`), each of
them against the report before it, whatever the other hosts and the other names do in between.
-/

namespace MonitorSystem

open Sql MysqlWriter

/-- A record that is written. -/
def HostMonitoringData.Kept (data : HostMonitoringData) : Prop :=
  data.scope.tenantId ≠ "" ∧ data.scope.teamId ≠ "" ∧ data.scope.clusterId ≠ ""

instance (data : HostMonitoringData) : Decidable data.Kept :=
  inferInstanceAs (Decidable (_ ∧ _ ∧ _))

theorem HostMonitoringData.Kept.not_dropped {data : HostMonitoringData} (h : data.Kept) :
    ¬ (data.scope.tenantId = "" ∨ data.scope.teamId = "" ∨ data.scope.clusterId = "") :=
  not_or.mpr ⟨h.1, not_or.mpr h.2⟩

/-- **A detail table**, with how it is written: which entries a record reports, by which name each
of them is known and in which column this name stands, what is remembered of it and which row is
made of it. -/
structure DetailSeries (α τ : Type) where
  table : Table
  column : String
  infos : MonitorInfo → List α
  key : α → String
  sample : HostMonitoringData → α → τ
  insert : Platform → HostMonitoringData → α → τ → Insert
  last : LastSamples → String → String → τ
  written : ∀ (p : Platform) (l : LastSamples) (data : HostMonitoringData), data.Kept →
    (writeToMysql p l data).2.filter (fun i => i.table = table) =
        (writeDetails key (sample data) (insert p data) (last l data.hostName)
          (infos data.hostScore.info)).2 ∧
      last (writeToMysql p l data).1 = Function.update (last l) data.hostName
        (writeDetails key (sample data) (insert p data) (last l data.hostName)
          (infos data.hostScore.info)).1
  named : ∀ (p : Platform) (data : HostMonitoringData) (a : α) (prev : τ),
    (insert p data a prev).row.get "server_name" = .text data.hostName ∧
      (insert p data a prev).row.get column = .text (key a)

namespace DetailSeries

variable {α τ : Type} (D : DetailSeries α τ) (p : Platform) (l : LastSamples)
  (records : List HostMonitoringData) (host name : String)

/-- The reports of a name of a host, in the order of the records. -/
def reports : List (HostMonitoringData × α) :=
  records.flatMap fun data =>
    if data.Kept ∧ data.hostName = host then
      ((D.infos data.hostScore.info).filter fun a => D.key a = name).map (data, ·)
    else []

/-- **The rows of a name of a host**, among all that is written. -/
def rows : List Insert :=
  (writeAll p l records).flatMap fun w => w.2.filter fun i =>
    i.table = D.table ∧ i.row.get "server_name" = .text host ∧ i.row.get D.column = .text name

variable {p l host name}

/-- The loop over the entries of a record keeps its state by name. -/
theorem writeDetails_eq_keyed (key : α → String) (sample : α → τ) (insert : α → τ → Insert)
    (last : String → τ) (as : List α) :
    writeDetails key sample insert last as =
      ((Keyed.run key (fun s a => (sample a, insert a s)) last as).1,
        (Keyed.run key (fun s a => (sample a, insert a s)) last as).2.map (·.2)) := by
  induction as generalizing last with
  | nil => rfl
  | cons a as ih =>
    rw [writeDetails, ih]
    rfl

/-- The rows of one name are made of the entries of this name alone. -/
theorem filter_writeDetails_key (sample : α → τ) {insert : α → τ → Insert} {key : α → String}
    {column : String} (name : String)
    (hkey : ∀ a prev, (insert a prev).row.get column = .text (key a))
    (last : String → τ) (as : List α) :
    (writeDetails key sample insert last as).2.filter
        (fun i => i.row.get column = .text name) =
      Successive.run sample insert (last name) (as.filter fun a => key a = name) ∧
    (writeDetails key sample insert last as).1 name =
      Successive.final sample (last name) (as.filter fun a => key a = name) := by
  have hshows : ∀ (prev : τ) (a : α),
      (insert a prev).row.get column = .text name ↔ key a = name := by
    intro prev a
    rw [hkey a prev, Value.text.injEq]
  rw [writeDetails_eq_keyed]
  exact Keyed.run_successive (f := fun s a => (sample a, insert a s)) (fun _ _ => rfl) hshows last
    as

variable (p l name) in
/-- What one record leaves of a name. -/
theorem rows_written (data : HostMonitoringData) (h : data.Kept ∧ data.hostName = host) :
    (writeToMysql p l data).2.filter (fun i => i.table = D.table ∧
        i.row.get "server_name" = .text host ∧ i.row.get D.column = .text name) =
      Successive.run (D.sample data) (D.insert p data) (D.last l host name)
        ((D.infos data.hostScore.info).filter fun a => D.key a = name) ∧
    D.last (writeToMysql p l data).1 host name =
      Successive.final (D.sample data) (D.last l host name)
        ((D.infos data.hostScore.info).filter fun a => D.key a = name) := by
  obtain ⟨hkept, rfl⟩ := h
  obtain ⟨hwritten, hlast⟩ := D.written p l data hkept
  obtain ⟨hrows, hfinal⟩ := filter_writeDetails_key (D.sample data) name
    (fun a prev => (D.named p data a prev).2) (D.last l data.hostName) (D.infos data.hostScore.info)
  constructor
  · have hserver : ∀ i ∈ (writeDetails D.key (D.sample data) (D.insert p data)
        (D.last l data.hostName) (D.infos data.hostScore.info)).2,
        (decide (i.row.get "server_name" = .text data.hostName ∧
          i.row.get D.column = .text name)) =
          decide (i.row.get D.column = .text name) := by
      intro i hi
      obtain ⟨a, prev, rfl⟩ := mem_writeDetails hi
      simp [(D.named p data a prev).1]
    rw [← hrows, ← List.filter_congr hserver, ← hwritten, List.filter_filter]
    exact List.filter_congr fun i _ => by rw [Bool.and_comm, ← Bool.decide_and]
  · rw [hlast, Function.update_self, hfinal]

variable (p l name) in
/-- A record that is dropped, or of another host, leaves nothing. -/
theorem rows_unwritten (data : HostMonitoringData) (h : ¬ (data.Kept ∧ data.hostName = host)) :
    (writeToMysql p l data).2.filter (fun i => i.table = D.table ∧
        i.row.get "server_name" = .text host ∧ i.row.get D.column = .text name) = [] ∧
    D.last (writeToMysql p l data).1 host name = D.last l host name := by
  by_cases hkept : data.Kept
  · have hhost : data.hostName ≠ host := fun heq => h ⟨hkept, heq⟩
    obtain ⟨hwritten, hlast⟩ := D.written p l data hkept
    constructor
    · refine List.filter_eq_nil_iff.mpr fun i hi hcon => ?_
      obtain ⟨htable, hserver, -⟩ := of_decide_eq_true hcon
      have hmem : i ∈ (writeToMysql p l data).2.filter (fun i => i.table = D.table) :=
        List.mem_filter.mpr ⟨hi, decide_eq_true htable⟩
      rw [hwritten] at hmem
      obtain ⟨a, prev, rfl⟩ := mem_writeDetails hmem
      rw [(D.named p data a prev).1] at hserver
      exact hhost (Value.text.inj hserver)
    · rw [hlast, Function.update_of_ne (Ne.symm hhost)]
  · have hdropped : writeToMysql p l data = (l, []) :=
      if_pos (by simpa [HostMonitoringData.Kept, or_iff_not_imp_left] using hkept)
    rw [hdropped]
    exact ⟨rfl, rfl⟩

/-- **The rows of a name are made of its reports alone**, each of them against the report before
it. -/
theorem rows_eq :
    D.rows p l records host name =
      Successive.run (fun r => D.sample r.1 r.2) (fun r => D.insert p r.1 r.2)
        (D.last l host name) (D.reports records host name) := by
  induction records generalizing l with
  | nil => rfl
  | cons data records ih =>
    have hrows : D.rows p l (data :: records) host name = _ := List.flatMap_cons
    have hreports : D.reports (data :: records) host name = _ := List.flatMap_cons
    rw [hrows, hreports, Successive.run_append]
    by_cases h : data.Kept ∧ data.hostName = host
    · obtain ⟨hfirst, hlast⟩ := D.rows_written p l name data h
      rw [if_pos h, Successive.run_map, Successive.final_map, ← hfirst, ← hlast]
      exact congrArg _ ih
    · obtain ⟨hfirst, hlast⟩ := D.rows_unwritten p l name data h
      rw [if_neg h, Successive.run_nil, Successive.final_nil, ← hfirst, ← hlast]
      exact congrArg _ ih

end DetailSeries

end MonitorSystem
