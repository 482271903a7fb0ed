import MonitorSystem.Worker.RedisMonitor

/-!
# What is published of a MySQL server

`MysqlMonitor::updateOnce` (`worker/src/monitor/MysqlMonitor.cpp`) connects to every instance and
asks it for its variables, its status and the state of its replication. Each of the queries may fail
on its own: then its values are missing, a number being zero where there is none. Replication is
asked for under its new name first, and under its old one only if that cannot be answered.

The role is the one of the configuration, if there is one. Otherwise an instance that is read-only
counts as a replica. `mysql_published` says what the message holds. The share of the reads that the
buffer pool has served is a percentage whatever the counters are, since it is cut off at zero
(`isPercentage_hitPercentOf`).
-/

namespace MonitorSystem

namespace MysqlMonitor

open RedisMonitor (InfoTable setAll toUInt64 infoUInt64 infoDouble)

/-- A row of two columns, either of which may be null. -/
abbrev NameValue := Option (List Char) × Option (List Char)

/-- The key and the value of a row, if there are both. -/
def pairOf : NameValue → Option (List Char × List Char)
  | (some name, some value) => some (name, value)
  | _ => none

/-- `queryNameValue`, of what is fetched, if the query succeeds. -/
def queryNameValue (rows : Option (List NameValue)) : InfoTable :=
  setAll (fun _ => none) ((rows.getD []).filterMap pairOf)

/-- `ReplicationStatus`. -/
structure ReplicationStatus where
  configured : Bool := false
  running : Bool := false
  lagSeconds : ℚ := 0

/-- The result of a query for the replication: the names of its columns with the values of the first
row, if there is a row. -/
abbrev ReplicationResult := Option (List NameValue)

/-- A value of a row, empty where there is none; the name of its column has changed. -/
def renamed (values : InfoTable) (newName oldName : String) : List Char :=
  (values newName.toList).getD ((values oldName.toList).getD [])

/-- `parseResult`. -/
def parseResult (stod : List Char → Option ℚ) : ReplicationResult → ReplicationStatus
  | none => {}
  | some row =>
    let values := setAll (fun _ => none) (row.filterMap pairOf)
    let ioRunning := renamed values "Replica_IO_Running" "Slave_IO_Running"
    let sqlRunning := renamed values "Replica_SQL_Running" "Slave_SQL_Running"
    { configured := true
      running := ioRunning = "Yes".toList ∧ sqlRunning = "Yes".toList
      lagSeconds :=
        if (values "Seconds_Behind_Source".toList).isSome then
          infoDouble stod values "Seconds_Behind_Source"
        else infoDouble stod values "Seconds_Behind_Master" }

/-- What an instance answers once it is connected to; a query that fails has no result. -/
structure Session where
  version : Option String
  globalVariables : Option (List NameValue)
  globalStatus : Option (List NameValue)
  replicaStatus : Option ReplicationResult
  slaveStatus : Option ReplicationResult

/-- `queryReplicationStatus`. -/
def queryReplicationStatus (stod : List Char → Option ℚ) (s : Session) : ReplicationStatus :=
  match s.replicaStatus with
  | some result => parseResult stod result
  | none =>
    match s.slaveStatus with
    | some result => parseResult stod result
    | none => {}

/-- A variable that is on. -/
def isOnAt (vars : InfoTable) (name : String) : Bool :=
  (vars name.toList).any fun value => isTruthy (.ofList value)

/-- `inferRole`. -/
def inferRole (vars : InfoTable) (roleHint : List Char) : String :=
  if roleHint ≠ [] ∧ roleHint ≠ defaultRole then .ofList roleHint
  else if isOnAt vars "read_only" || isOnAt vars "super_read_only" then "replica"
  else "primary"

/-- The message of an instance before it is connected to. -/
def addressed (t : Target) : MysqlInfo where
  instanceName := .ofList t.instanceName
  host := .ofList t.host
  port := UInt32.ofNat t.port
  role := if t.roleHint = [] then "unknown" else .ofList t.roleHint

/-- The share of the reads that the buffer pool has served, in percent. -/
def hitPercentOf (reads requests : UInt64) : ℚ :=
  let hitPercent := binary64 (binary64 (1 - binary64 (binary64 reads.toNat /
    binary64 requests.toNat)) * 100)
  if hitPercent < 0 then 0 else hitPercent

/-- The message of an instance that is connected to. -/
def answered (stod : List Char → Option ℚ) (t : Target) (s : Session) : MysqlInfo :=
  let vars := queryNameValue s.globalVariables
  let status := queryNameValue s.globalStatus
  let requests := infoUInt64 status "Innodb_buffer_pool_read_requests"
  let reads := infoUInt64 status "Innodb_buffer_pool_reads"
  let replication := queryReplicationStatus stod s
  { addressed t with
    up := true
    version := s.version.getD ""
    role := inferRole vars t.roleHint
    maxConnections := infoUInt64 vars "max_connections"
    threadsConnected := infoUInt64 status "Threads_connected"
    threadsRunning := infoUInt64 status "Threads_running"
    abortedConnects := infoUInt64 status "Aborted_connects"
    questions := infoUInt64 status "Questions"
    comSelect := infoUInt64 status "Com_select"
    comInsert := infoUInt64 status "Com_insert"
    comUpdate := infoUInt64 status "Com_update"
    comDelete := infoUInt64 status "Com_delete"
    comCommit := infoUInt64 status "Com_commit"
    comRollback := infoUInt64 status "Com_rollback"
    slowQueries := infoUInt64 status "Slow_queries"
    innodbBufferPoolReadRequests := requests
    innodbBufferPoolReads := reads
    innodbBufferPoolHitPercent := if 0 < requests then hitPercentOf reads requests else 0
    innodbRowLockWaits := infoUInt64 status "Innodb_row_lock_waits"
    innodbRowLockTimeAvgMs := infoDouble stod status "Innodb_row_lock_time_avg"
    replicationConfigured := replication.configured
    replicationRunning := replication.running
    replicationLagSeconds := replication.lagSeconds }

/-- **`updateOnce`**: one message for each instance; `connect` is what an instance answers, if it
can be connected to. -/
def updateOnce (stod : List Char → Option ℚ) (connect : Target → Option Session)
    (targets : List Target) : List MysqlInfo :=
  targets.map fun t => ((connect t).map (answered stod t)).getD (addressed t)

/-! ### The messages -/

/-- The counters of a message that are in the status, with their names. -/
def statusFields : List (String × (MysqlInfo → UInt64)) :=
  [("Threads_connected", (·.threadsConnected)), ("Threads_running", (·.threadsRunning)),
    ("Aborted_connects", (·.abortedConnects)), ("Questions", (·.questions)),
    ("Com_select", (·.comSelect)), ("Com_insert", (·.comInsert)), ("Com_update", (·.comUpdate)),
    ("Com_delete", (·.comDelete)), ("Com_commit", (·.comCommit)),
    ("Com_rollback", (·.comRollback)), ("Slow_queries", (·.slowQueries)),
    ("Innodb_buffer_pool_read_requests", (·.innodbBufferPoolReadRequests)),
    ("Innodb_buffer_pool_reads", (·.innodbBufferPoolReads)),
    ("Innodb_row_lock_waits", (·.innodbRowLockWaits))]

/-- The last value of a name in the rows of an answer. -/
def lastOf (rows : List NameValue) (name : List Char) : Option (List Char) :=
  ((rows.filterMap pairOf).filter fun p => p.1 = name).getLast?.map Prod.snd

/-- **What a message says of an instance.** -/
structure Published (t : Target) (session : Option Session) (info : MysqlInfo) : Prop where
  instanceName : info.instanceName = .ofList t.instanceName
  host : info.host = .ofList t.host
  port : info.port = UInt32.ofNat t.port
  up : info.up = session.isSome
  down : session = none → info = addressed t
  hinted : t.roleHint ≠ [] → t.roleHint ≠ defaultRole → info.role = .ofList t.roleHint
  inferred : ∀ s ∈ session, t.roleHint = [] ∨ t.roleHint = defaultRole →
    (info.role = "replica" ↔ ∃ name ∈ ["read_only", "super_read_only"], ∃ value,
        lastOf (s.globalVariables.getD []) name.toList = some value ∧ isTruthy (.ofList value)) ∧
      (info.role ≠ "replica" → info.role = "primary")
  counter : ∀ s ∈ session, ∀ p ∈ statusFields, ∀ n : UInt64,
    lastOf (s.globalStatus.getD []) p.1.toList = some (Nat.toDigits 10 n.toNat) → p.2 info = n
  missing : ∀ s ∈ session, ∀ p ∈ statusFields,
    lastOf (s.globalStatus.getD []) p.1.toList = none → p.2 info = 0
  hits : DiskMonitor.IsPercentage info.innodbBufferPoolHitPercent
  running : info.replicationRunning = true → info.replicationConfigured = true
  unconfigured : info.replicationConfigured = false → info.replicationLagSeconds = 0

theorem queryNameValue_apply (rows : Option (List NameValue)) (name : List Char) :
    queryNameValue rows name = lastOf (rows.getD []) name := by
  rw [queryNameValue, RedisMonitor.setAll_apply, lastOf, Option.or_none]

theorem isOnAt_iff (rows : Option (List NameValue)) (name : String) :
    isOnAt (queryNameValue rows) name = true ↔
      ∃ value, lastOf (rows.getD []) name.toList = some value ∧ isTruthy (.ofList value) := by
  rw [isOnAt, queryNameValue_apply, Option.any_eq_true]

/-- Without a role in the configuration, an instance that is read-only counts as a replica. -/
theorem inferRole_unhinted (rows : Option (List NameValue)) {roleHint : List Char}
    (h : roleHint = [] ∨ roleHint = defaultRole) :
    (inferRole (queryNameValue rows) roleHint = "replica" ↔
        ∃ name ∈ ["read_only", "super_read_only"], ∃ value,
          lastOf (rows.getD []) name.toList = some value ∧ isTruthy (.ofList value)) ∧
      (inferRole (queryNameValue rows) roleHint ≠ "replica" →
        inferRole (queryNameValue rows) roleHint = "primary") := by
  have hhint : ¬(roleHint ≠ [] ∧ roleHint ≠ defaultRole) := by
    rintro ⟨hne, hdefault⟩
    exact h.elim hne hdefault
  rw [inferRole, if_neg hhint]
  simp only [List.mem_cons, List.not_mem_nil, or_false, exists_eq_or_imp, exists_eq_left,
    ← isOnAt_iff, ← Bool.or_eq_true]
  split
  · next hon => exact ⟨⟨fun _ => hon, fun _ => rfl⟩, fun hne => absurd rfl hne⟩
  · next hoff =>
    exact ⟨⟨fun heq => absurd heq (by decide), fun hon => absurd hon hoff⟩, fun _ => rfl⟩

/-- **The share is a percentage**, whatever the counters are. -/
theorem isPercentage_hitPercentOf (reads requests : UInt64) :
    DiskMonitor.IsPercentage (hitPercentOf reads requests) := by
  obtain ⟨miss, hmiss⟩ :
      ∃ miss, binary64 (binary64 reads.toNat / binary64 requests.toNat) = miss := ⟨_, rfl⟩
  have hmiss_nonneg : 0 ≤ miss := by
    rw [← hmiss]
    exact binary64_nonneg (div_nonneg (binary64_nonneg (Nat.cast_nonneg _))
      (binary64_nonneg (Nat.cast_nonneg _)))
  rw [hitPercentOf, hmiss]
  split
  · exact DiskMonitor.isPercentage_zero
  · next hnonneg =>
    rcases lt_or_ge (1 - miss) 0 with hneg | hpos
    · -- more has been read than asked for: the share is negative, and zero takes its place
      have hshare : binary64 (1 - miss) < 0 :=
        Digits.round_neg Digits.isNearest_halfEven (by decide) (by decide) hneg
      have hpercent : binary64 (binary64 (1 - miss) * 100) < 0 :=
        Digits.round_neg Digits.isNearest_halfEven (by decide) (by decide) (by linarith)
      exact absurd hpercent hnonneg
    · exact RedisMonitor.isPercentage_hundredfold hpos (by linarith)

theorem statusFields_answered (stod : List Char → Option ℚ) (t : Target) (s : Session) :
    ∀ p ∈ statusFields,
      p.2 (answered stod t s) = infoUInt64 (queryNameValue s.globalStatus) p.1 := by
  simp only [statusFields, List.forall_mem_cons]
  exact ⟨rfl, rfl, rfl, rfl, rfl, rfl, rfl, rfl, rfl, rfl, rfl, rfl, rfl, rfl, by simp⟩

/-- Replication that is running, or behind, is configured. -/
theorem parseResult_configured (stod : List Char → Option ℚ) (result : ReplicationResult) :
    ((parseResult stod result).running = true → (parseResult stod result).configured = true) ∧
      ((parseResult stod result).configured = false →
        (parseResult stod result).lagSeconds = 0) := by
  rcases result with _ | row
  · exact ⟨nofun, fun _ => rfl⟩
  · exact ⟨fun _ => rfl, nofun⟩

theorem queryReplicationStatus_configured (stod : List Char → Option ℚ) (s : Session) :
    ((queryReplicationStatus stod s).running = true →
        (queryReplicationStatus stod s).configured = true) ∧
      ((queryReplicationStatus stod s).configured = false →
        (queryReplicationStatus stod s).lagSeconds = 0) := by
  rw [queryReplicationStatus]
  rcases s.replicaStatus with _ | result
  · rcases s.slaveStatus with _ | result
    · exact ⟨nofun, fun _ => rfl⟩
    · exact parseResult_configured stod result
  · exact parseResult_configured stod result

theorem published_answered (stod : List Char → Option ℚ) (t : Target) (s : Session) :
    Published t (some s) (answered stod t s) where
  instanceName := rfl
  host := rfl
  port := rfl
  up := rfl
  down := nofun
  hinted := fun hne hhint => if_pos ⟨hne, hhint⟩
  inferred := by
    intro s' hs hhint
    obtain rfl := Option.mem_some_iff.mp hs
    exact inferRole_unhinted _ hhint
  counter := by
    intro s' hs p hp n hn
    obtain rfl := Option.mem_some_iff.mp hs
    rw [statusFields_answered stod t _ p hp, infoUInt64, queryNameValue_apply, hn]
    exact RedisMonitor.toUInt64_toDigits n
  missing := by
    intro s' hs p hp hn
    obtain rfl := Option.mem_some_iff.mp hs
    rw [statusFields_answered stod t _ p hp, infoUInt64, queryNameValue_apply, hn]
    rfl
  hits := by
    show DiskMonitor.IsPercentage (if 0 < infoUInt64 (queryNameValue s.globalStatus)
      "Innodb_buffer_pool_read_requests" then hitPercentOf _ _ else 0)
    split
    · exact isPercentage_hitPercentOf _ _
    · exact DiskMonitor.isPercentage_zero
  running := (queryReplicationStatus_configured stod s).1
  unconfigured := (queryReplicationStatus_configured stod s).2

theorem published_addressed (t : Target) : Published t none (addressed t) where
  instanceName := rfl
  host := rfl
  port := rfl
  up := rfl
  down := fun _ => rfl
  hinted := fun hne _ => if_neg hne
  inferred := nofun
  counter := nofun
  missing := nofun
  hits := DiskMonitor.isPercentage_zero
  running := nofun
  unconfigured := fun _ => rfl

/-- **What is published of the instances**: one message for each, in their order. An instance that
cannot be connected to is reported as down; of one that answers, each counter is the last one of its
name in the status, whichever queries fail; its role is the configured one, or that of a replica
exactly if one of the two variables is on; the share of the buffer pool is a percentage, and
replication that is running, or behind, is configured. -/
theorem mysql_published (stod : List Char → Option ℚ) (connect : Target → Option Session)
    (targets : List Target) :
    List.Forall₂ (fun t info => Published t (connect t) info) targets
      (updateOnce stod connect targets) := by
  rw [updateOnce, List.forall₂_map_right_iff, List.forall₂_same]
  rintro t -
  rcases connect t with _ | s
  · exact published_addressed t
  · exact published_answered stod t s

end MysqlMonitor

end MonitorSystem
