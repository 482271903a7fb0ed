import MonitorSystem.Manager.QueryStatements

/-!
# The rows that the manager has written

The tables that the query manager reads are those that `writeToMysql` fills. Every row it
inserts carries the scope of its record, as texts, so that the contents of the tables after
any sequence of writes are a `Database`, and a row of a scope comes from a record of that
scope (`Database.ofWrites_inScope`).
-/

namespace MonitorSystem

open Sql

namespace MysqlWriter

/-- Every statement of a detail table is one of its entries. -/
theorem mem_writeDetails {α τ : Type} {key : α → String} {sample : α → τ}
    {insert : α → τ → Insert} {es : List α} {last : String → τ} {ins : Insert}
    (h : ins ∈ (writeDetails key sample insert last es).2) : ∃ e prev, ins = insert e prev := by
  induction es generalizing last with
  | nil => cases h
  | cons e es ih =>
    rcases List.mem_cons.mp h with rfl | h
    · exact ⟨e, last (key e), rfl⟩
    · exact ih h

/-- **The rows that are written**, for a record that has a scope: one of `server_performance`, and
those of the entries, each computed against some sample before it. -/
theorem writeToMysql_cases {p : Platform} {l : LastSamples} {data : HostMonitoringData}
    {ins : Insert} (h : ins ∈ (writeToMysql p l data).2) :
    (data.scope.tenantId ≠ "" ∧ data.scope.teamId ≠ "" ∧ data.scope.clusterId ≠ "") ∧
      (ins = performanceInsert p data (l.lastDiskUtil data.hostName) ∨
        (∃ net prev, ins = netInsert p data net prev) ∨
        (∃ s prev, ins = softIrqInsert p data s prev) ∨
        (∃ m prev, ins = memInsert p data m prev) ∨
        (∃ disk prev, ins = diskInsert p data disk prev) ∨
        (∃ m prev, ins = mysqlInsert p data m prev) ∨
        ∃ r prev, ins = redisInsert p data r prev) := by
  unfold writeToMysql at h
  split at h
  · cases h
  · next hscope =>
    refine ⟨by simpa only [not_or] using hscope, ?_⟩
    simp only [List.cons_append, List.mem_cons, List.mem_append, Option.mem_toList,
      Option.map_eq_some_iff] at h
    rcases h with hperformance | ((((hnet | hsoftirq) | ⟨m, -, rfl⟩) | hdisk) | hmysql) | hredis
    · exact .inl hperformance
    · exact .inr (.inl (mem_writeDetails hnet))
    · exact .inr (.inr (.inl (mem_writeDetails hsoftirq)))
    · exact .inr (.inr (.inr (.inl ⟨m, _, rfl⟩)))
    · exact .inr (.inr (.inr (.inr (.inl (mem_writeDetails hdisk)))))
    · exact .inr (.inr (.inr (.inr (.inr (.inl (mem_writeDetails hmysql))))))
    · exact .inr (.inr (.inr (.inr (.inr (.inr (mem_writeDetails hredis))))))

/-- **Every row that is written begins with the columns of its scope.** -/
theorem exists_detailRow {p : Platform} {l : LastSamples} {data : HostMonitoringData}
    {ins : Insert} (h : ins ∈ (writeToMysql p l data).2) :
    ∃ table columns values, ins = detailRow p data table columns values := by
  obtain ⟨-, rfl | ⟨_, _, rfl⟩ | ⟨_, _, rfl⟩ | ⟨_, _, rfl⟩ | ⟨_, _, rfl⟩ | ⟨_, _, rfl⟩ |
    ⟨_, _, rfl⟩⟩ := writeToMysql_cases h
  all_goals exact ⟨_, _, _, rfl⟩

/-- The rows of a detail table go into one table. -/
theorem filter_writeDetails {α τ : Type} (key : α → String) (sample : α → τ)
    (insert : α → τ → Insert) (t : Table) (h : ∀ e prev, (insert e prev).table = t)
    (table : Table) (last : String → τ) (es : List α) :
    (writeDetails key sample insert last es).2.filter (fun i => i.table = table) =
      if t = table then (writeDetails key sample insert last es).2 else [] := by
  have htable : ∀ i ∈ (writeDetails key sample insert last es).2, i.table = t := by
    intro i hi
    obtain ⟨e, prev, rfl⟩ := mem_writeDetails hi
    exact h e prev
  split
  · next ht => exact List.filter_eq_self.mpr fun i hi => decide_eq_true ((htable i hi).trans ht)
  · next ht =>
    exact List.filter_eq_nil_iff.mpr fun i hi =>
      by simpa using fun hcon => ht ((htable i hi).symm.trans hcon)

/-- **What a record with a scope writes into each table.** -/
theorem filter_writeToMysql (p : Platform) (l : LastSamples) (data : HostMonitoringData)
    (hscope : ¬ (data.scope.tenantId = "" ∨ data.scope.teamId = "" ∨ data.scope.clusterId = ""))
    (table : Table) :
    (writeToMysql p l data).2.filter (fun i => i.table = table) =
      let host := data.hostName
      let info := data.hostScore.info
      match table with
      | .serverPerformance => [performanceInsert p data (l.lastDiskUtil host)]
      | .serverNetDetail =>
        (writeDetails (·.name) netSample (netInsert p data) (l.lastNetSamples host) info.netInfo).2
      | .serverSoftirqDetail =>
        (writeDetails (·.cpu) softIrqSample (softIrqInsert p data) (l.lastSoftirqSamples host)
          info.softIrq).2
      | .serverMemDetail =>
        (info.memInfo.map fun m => memInsert p data m (l.lastMemSamples host)).toList
      | .serverDiskDetail =>
        (writeDetails (·.name) (diskSample p) (diskInsert p data) (l.lastDiskSamples host)
          info.diskInfo).2
      | .serverMysqlDetail =>
        (writeDetails (fun m => instanceKey m.instanceName m.host m.port) (mysqlSample data)
          (mysqlInsert p data) (l.lastMysqlSamples host) info.mysqlInfo).2
      | .serverRedisDetail =>
        (writeDetails (fun r => instanceKey r.instanceName r.host r.port) (redisSample data)
          (redisInsert p data) (l.lastRedisSamples host) info.redisInfo).2 := by
  have hnet := filter_writeDetails (·.name) netSample (netInsert p data) .serverNetDetail
    fun _ _ => rfl
  have hsoftirq := filter_writeDetails (·.cpu) softIrqSample (softIrqInsert p data)
    .serverSoftirqDetail fun _ _ => rfl
  have hdisk := filter_writeDetails (·.name) (diskSample p) (diskInsert p data)
    .serverDiskDetail fun _ _ => rfl
  have hmysql := filter_writeDetails (fun m => instanceKey m.instanceName m.host m.port)
    (mysqlSample data) (mysqlInsert p data) .serverMysqlDetail fun _ _ => rfl
  have hredis := filter_writeDetails (fun r => instanceKey r.instanceName r.host r.port)
    (redisSample data) (redisInsert p data) .serverRedisDetail fun _ _ => rfl
  have hwrite : (writeToMysql p l data).2 = _ := congrArg Prod.snd (if_neg hscope)
  rw [hwrite]
  cases table <;> cases data.hostScore.info.memInfo <;>
    simp [performanceInsert, memInsert, detailRow, insertInto, hnet, hsoftirq, hdisk, hmysql,
      hredis]

/-- The columns of the scope of a row that is written. -/
theorem get_detailRow (p : Platform) (data : HostMonitoringData) (table : Table)
    (columns : List String) (values : List Value) :
    (detailRow p data table columns values).row.get "tenant_id" = .text data.scope.tenantId ∧
    (detailRow p data table columns values).row.get "team_id" = .text data.scope.teamId ∧
    (detailRow p data table columns values).row.get "cluster_id" = .text data.scope.clusterId := by
  simp [detailRow, insertInto, Row.get, scopeColumns, scopeValues, List.lookup_cons]

/-- What is written is written for a record. -/
theorem exists_of_mem_writeAll {p : Platform} {l : LastSamples}
    {records : List HostMonitoringData} {w : HostMonitoringData × List Insert}
    (h : w ∈ writeAll p l records) :
    w.1 ∈ records ∧ ∃ l', w.2 = (writeToMysql p l' w.1).2 := by
  induction records generalizing l with
  | nil => cases h
  | cons data records ih =>
    rcases List.mem_cons.mp h with rfl | h
    · exact ⟨List.mem_cons_self, l, rfl⟩
    · obtain ⟨hmem, l', hw⟩ := ih h
      exact ⟨List.mem_cons_of_mem data hmem, l', hw⟩

end MysqlWriter

open MysqlWriter

/-- The rows of a table after a sequence of writes. -/
def writtenRows (p : Platform) (l : LastSamples) (records : List HostMonitoringData)
    (table : Table) : List Row :=
  (((writeAll p l records).flatMap Prod.snd).filter fun i => i.table = table).map Insert.row

/-- **A row that has been written carries the scope of a record.** -/
theorem exists_record_of_mem_writtenRows {p : Platform} {l : LastSamples}
    {records : List HostMonitoringData} {table : Table} {r : Row}
    (h : r ∈ writtenRows p l records table) :
    ∃ data ∈ records, r.get "tenant_id" = .text data.scope.tenantId ∧
      r.get "team_id" = .text data.scope.teamId ∧
      r.get "cluster_id" = .text data.scope.clusterId := by
  obtain ⟨ins, hins, rfl⟩ := List.mem_map.mp h
  obtain ⟨w, hw, hmem⟩ := List.mem_flatMap.mp (List.mem_of_mem_filter hins)
  obtain ⟨hdata, l', heq⟩ := exists_of_mem_writeAll hw
  rw [heq] at hmem
  obtain ⟨t, columns, values, rfl⟩ := exists_detailRow hmem
  exact ⟨w.1, hdata, get_detailRow p w.1 t columns values⟩

/-- **The tables after a sequence of writes.** -/
def Database.ofWrites (p : Platform) (l : LastSamples) (records : List HostMonitoringData) :
    Database where
  rows := writtenRows p l records
  typed table r hr c hc := by
    obtain ⟨data, -, htenant, hteam, hcluster⟩ := exists_record_of_mem_writtenRows hr
    simp only [List.mem_cons, List.not_mem_nil, or_false] at hc
    rcases hc with rfl | rfl | rfl
    · exact ⟨_, htenant⟩
    · exact ⟨_, hteam⟩
    · exact ⟨_, hcluster⟩

/-- **A row of a scope was written for a record of that scope.** -/
theorem Database.ofWrites_inScope {p : Platform} {l : LastSamples}
    {records : List HostMonitoringData} {table : Table} {scope : QueryScope} {r : Row}
    (hr : r ∈ (Database.ofWrites p l records).rows table) (h : InScope scope r) :
    ∃ data ∈ records, data.scope.tenantId = scope.tenantId ∧ data.scope.teamId = scope.teamId ∧
      (scope.clusterId ≠ "" → data.scope.clusterId = scope.clusterId) := by
  obtain ⟨data, hdata, htenant, hteam, hcluster⟩ := exists_record_of_mem_writtenRows hr
  refine ⟨data, hdata, ?_, ?_, fun hne => ?_⟩
  · exact Value.text.inj (htenant.symm.trans h.1)
  · exact Value.text.inj (hteam.symm.trans h.2.1)
  · exact Value.text.inj (hcluster.symm.trans (h.2.2 hne))

end MonitorSystem
