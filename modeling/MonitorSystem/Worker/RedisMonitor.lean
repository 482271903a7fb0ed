import MonitorSystem.Manager.MonitorInfo
import MonitorSystem.Worker.MemMonitor
import MonitorSystem.Worker.MonitorTargets

/-!
# What is published of a Redis server

`RedisMonitor::updateOnce` (`worker/src/monitor/RedisMonitor.cpp`) asks every instance for its
`INFO`: lines of the form `key:value`, in sections that begin with a comment and end with an empty
line. The keys and values are put into a table (`parseInfo`), and the message is made of the values
of some keys, a number being zero where there is none.

A server that lists its values, in any sections and in any order, is read as it is: the table holds
the last value of each key (`parseInfo_infoText`). An instance that does not answer is reported as
down, and has no influence on the messages of the others. The share of the hits among all lookups is
a percentage as long as the sum of both counters does not wrap around (`redis_published`).
-/

namespace MonitorSystem

namespace RedisMonitor

/-- A table of texts, `std::map`. -/
abbrev InfoTable := List Char → Option (List Char)

/-- A line without the return at its end. -/
def withoutReturn (line : List Char) : List Char :=
  if line.getLast? = some '\r' then line.dropLast else line

/-- What a line says: a key and its value. -/
def infoLine (line : List Char) : Option (List Char × List Char) :=
  let line := withoutReturn line
  if line = [] ∨ line.head? = some '#' then none
  else if ':' ∈ line then some (line.takeWhile (· ≠ ':'), (line.dropWhile (· ≠ ':')).tail)
  else none

/-- The tables after some keys have been set. -/
def setAll (values : InfoTable) (pairs : List (List Char × List Char)) : InfoTable :=
  pairs.foldl (fun values p => Function.update values p.1 (some p.2)) values

/-- `parseInfo`. -/
def parseInfo (text : List Char) : InfoTable :=
  setAll (fun _ => none) ((Words.pieces '\n' text).filterMap infoLine)

/-- `toUInt64`: zero where `std::stoull` throws. -/
def toUInt64 (value : List Char) : UInt64 := (stoull (.ofList value)).getD 0

/-- `infoUInt64`. -/
def infoUInt64 (values : InfoTable) (key : String) : UInt64 :=
  ((values key.toList).map toUInt64).getD 0

/-- `infoDouble`, with `std::stod`, which may throw. -/
def infoDouble (stod : List Char → Option ℚ) (values : InfoTable) (key : String) : ℚ :=
  ((values key.toList).bind fun value => if value = [] then none else stod value).getD 0

/-- `infoString`. -/
def infoString (values : InfoTable) (key fallback : String) : String :=
  ((values key.toList).map String.ofList).getD fallback

/-- What an instance answers: the text of its `INFO`, and the length of its slow log, if it tells
that. -/
structure Answer where
  info : List Char
  slowlogLen : Option UInt64

/-- A share in percent. -/
def percentOf (part whole : UInt64) : ℚ :=
  binary64 (binary64 (binary64 part.toNat / binary64 whole.toNat) * 100)

/-- The message of an instance before it is asked. -/
def addressed (t : Target) : RedisInfo where
  instanceName := .ofList t.instanceName
  host := .ofList t.host
  port := UInt32.ofNat t.port
  role := "unknown"

/-- The message of an instance that answers. -/
def answered (stod : List Char → Option ℚ) (t : Target) (answer : Answer) : RedisInfo :=
  let values := parseInfo answer.info
  let role := infoString values "role" "unknown"
  let usedMemory := infoUInt64 values "used_memory"
  let maxmemory := infoUInt64 values "maxmemory"
  let keyspaceHits := infoUInt64 values "keyspace_hits"
  let keyspaceMisses := infoUInt64 values "keyspace_misses"
  let keyspaceTotal := keyspaceHits + keyspaceMisses
  { addressed t with
    up := true
    version := infoString values "redis_version" ""
    role
    uptimeInSeconds := infoUInt64 values "uptime_in_seconds"
    connectedClients := infoUInt64 values "connected_clients"
    blockedClients := infoUInt64 values "blocked_clients"
    maxclients := infoUInt64 values "maxclients"
    usedMemory
    maxmemory
    memFragmentationRatio := infoDouble stod values "mem_fragmentation_ratio"
    totalCommandsProcessed := infoUInt64 values "total_commands_processed"
    instantaneousOpsPerSec := infoDouble stod values "instantaneous_ops_per_sec"
    keyspaceHits
    keyspaceMisses
    expiredKeys := infoUInt64 values "expired_keys"
    evictedKeys := infoUInt64 values "evicted_keys"
    rejectedConnections := infoUInt64 values "rejected_connections"
    totalErrorReplies := infoUInt64 values "total_error_replies"
    totalNetInputBytes := infoUInt64 values "total_net_input_bytes"
    totalNetOutputBytes := infoUInt64 values "total_net_output_bytes"
    connectedSlaves := infoUInt64 values "connected_slaves"
    masterLastIoSecondsAgo := infoDouble stod values "master_last_io_seconds_ago"
    -- without a limit of the memory there is no percentage
    memoryUsedPercent := if 0 < maxmemory then percentOf usedMemory maxmemory else 0
    keyspaceHitPercent := if 0 < keyspaceTotal then percentOf keyspaceHits keyspaceTotal else 0
    replicationConfigured := role = "master" ∨ role = "slave"
    masterLinkUp := role = "master" ∨ infoString values "master_link_status" "" = "up"
    slowlogLen := answer.slowlogLen.getD 0 }

/-- **`updateOnce`**: one message for each instance; `ask` is what an instance answers, if it can be
reached and asked. -/
def updateOnce (stod : List Char → Option ℚ) (ask : Target → Option Answer)
    (targets : List Target) : List RedisInfo :=
  targets.map fun t => ((ask t).map (answered stod t)).getD (addressed t)

/-! ### The text of a server -/

/-- A line that a server writes: a comment (or nothing), or a key and its value. -/
inductive InfoEntry
  | comment (text : List Char)
  | field (key value : List Char)
  deriving DecidableEq, Repr

/-- The line. -/
def InfoEntry.line : InfoEntry → List Char
  | comment text => text
  | field key value => key ++ ':' :: value

/-- The key and the value of a line. -/
def InfoEntry.pair? : InfoEntry → Option (List Char × List Char)
  | comment _ => none
  | field key value => some (key, value)

/-- **A line that a server may write.** -/
def InfoEntry.Proper : InfoEntry → Prop
  | comment text => '\n' ∉ text ∧ (text = [] ∨ text.head? = some '#')
  | field key value => '\n' ∉ key ∧ '\n' ∉ value ∧ ':' ∉ key ∧ key ≠ [] ∧ key.head? ≠ some '#'

/-- The text of a server: each line ends with a return and a newline. -/
def infoText (es : List InfoEntry) : List Char := es.flatMap fun e => e.line ++ ['\r', '\n']

/-- The last value of a key. -/
def lastValue (es : List InfoEntry) (key : List Char) : Option (List Char) :=
  ((es.filterMap InfoEntry.pair?).filter fun p => p.1 = key).getLast?.map Prod.snd

theorem withoutReturn_append (line : List Char) : withoutReturn (line ++ ['\r']) = line := by
  rw [withoutReturn, List.getLast?_concat, if_pos rfl, List.dropLast_concat]

/-- A line is read as what it says. -/
theorem infoLine_line {e : InfoEntry} (h : e.Proper) : infoLine (e.line ++ ['\r']) = e.pair? := by
  rw [infoLine]
  simp only [withoutReturn_append]
  rcases e with text | ⟨key, value⟩
  · exact if_pos h.2
  · obtain ⟨-, -, hcolon, hne, hhash⟩ := h
    obtain ⟨c, cs, rfl⟩ := List.exists_cons_of_ne_nil hne
    have hall : ∀ x ∈ c :: cs, decide (x ≠ ':') = true := by
      intro x hx
      exact decide_eq_true fun heq => hcolon (heq ▸ hx)
    have htake : ((c :: cs) ++ ':' :: value).takeWhile (· ≠ ':') = c :: cs := by
      rw [List.takeWhile_append_of_pos hall, List.takeWhile_cons_of_neg (by simp), List.append_nil]
    have hdrop : ((c :: cs) ++ ':' :: value).dropWhile (· ≠ ':') = ':' :: value := by
      rw [List.dropWhile_append_of_pos hall, List.dropWhile_cons_of_neg (by simp)]
    have hstart : ¬((c :: cs) ++ ':' :: value = [] ∨
        ((c :: cs) ++ ':' :: value).head? = some '#') := by
      rintro (hnil | hhead)
      · cases hnil
      · exact hhash hhead
    have hline : (InfoEntry.field (c :: cs) value).line = (c :: cs) ++ ':' :: value := rfl
    rw [hline, if_neg hstart, if_pos (by simp), htake, hdrop]
    rfl

/-- A table holds the last value that was set. -/
theorem setAll_apply (values : InfoTable) (pairs : List (List Char × List Char))
    (key : List Char) :
    setAll values pairs key =
      ((pairs.filter fun p => p.1 = key).getLast?.map Prod.snd).or (values key) := by
  induction pairs generalizing values with
  | nil => rfl
  | cons p pairs ih =>
    rw [setAll, List.foldl_cons, ← setAll, ih, List.filter_cons]
    rcases eq_or_ne p.1 key with rfl | hne
    · rw [Function.update_self, if_pos (by simp), List.getLast?_cons]
      generalize (pairs.filter _).getLast? = last
      cases last <;> rfl
    · rw [Function.update_of_ne hne.symm, if_neg (by simpa using hne)]

/-- **What a server writes is read as what it says**, whatever its sections and the order of its
lines. -/
theorem parseInfo_infoText {es : List InfoEntry} (h : ∀ e ∈ es, e.Proper) :
    parseInfo (infoText es) = lastValue es := by
  have htext : infoText es = (es.map fun e => e.line ++ ['\r']).flatMap (· ++ ['\n']) := by
    rw [infoText, List.flatMap_map]
    refine congrArg (es.flatMap ·) (funext fun e => ?_)
    simp
  have hlines : ∀ line ∈ es.map (fun e => e.line ++ ['\r']), '\n' ∉ line := by
    intro line hline
    obtain ⟨e, he, rfl⟩ := List.mem_map.mp hline
    have hproper := h e he
    rcases e with text | ⟨key, value⟩
    · simp [InfoEntry.line, hproper.1]
    · simp [InfoEntry.line, hproper.1, hproper.2.1]
  have hpairs : (es.map fun e => e.line ++ ['\r']).filterMap infoLine =
      es.filterMap InfoEntry.pair? := by
    rw [List.filterMap_map]
    exact List.filterMap_congr fun e he => infoLine_line (h e he)
  funext key
  rw [parseInfo, htext, Words.pieces_flatMap hlines, hpairs, setAll_apply, lastValue, Option.or_none]

/-- Comments and empty lines are skipped, and a value may hold a colon. -/
example : parseInfo "# Server\r\nos:a:b\r\n\r\n".toList "os".toList = some "a:b".toList := by
  decide +kernel

/-! ### The messages -/

/-- The counters of a message, with their keys. -/
def counterFields : List (String × (RedisInfo → UInt64)) :=
  [("uptime_in_seconds", (·.uptimeInSeconds)), ("connected_clients", (·.connectedClients)),
    ("blocked_clients", (·.blockedClients)), ("maxclients", (·.maxclients)),
    ("used_memory", (·.usedMemory)), ("maxmemory", (·.maxmemory)),
    ("total_commands_processed", (·.totalCommandsProcessed)),
    ("keyspace_hits", (·.keyspaceHits)), ("keyspace_misses", (·.keyspaceMisses)),
    ("expired_keys", (·.expiredKeys)), ("evicted_keys", (·.evictedKeys)),
    ("rejected_connections", (·.rejectedConnections)),
    ("total_error_replies", (·.totalErrorReplies)),
    ("total_net_input_bytes", (·.totalNetInputBytes)),
    ("total_net_output_bytes", (·.totalNetOutputBytes)),
    ("connected_slaves", (·.connectedSlaves))]

/-- **What a message says of an instance.** -/
structure Published (t : Target) (answer : Option Answer) (info : RedisInfo) : Prop where
  instanceName : info.instanceName = .ofList t.instanceName
  host : info.host = .ofList t.host
  port : info.port = UInt32.ofNat t.port
  up : info.up = answer.isSome
  down : answer = none → info = addressed t
  counter : ∀ es slowlogLen, answer = some ⟨infoText es, slowlogLen⟩ → (∀ e ∈ es, e.Proper) →
    ∀ p ∈ counterFields, ∀ n : UInt64,
      lastValue es p.1.toList = some (Nat.toDigits 10 n.toNat) → p.2 info = n
  missing : ∀ es slowlogLen, answer = some ⟨infoText es, slowlogLen⟩ → (∀ e ∈ es, e.Proper) →
    ∀ p ∈ counterFields, lastValue es p.1.toList = none → p.2 info = 0
  hits : info.keyspaceHits.toNat + info.keyspaceMisses.toNat < 2 ^ 53 →
    DiskMonitor.IsPercentage info.keyspaceHitPercent
  memory : info.usedMemory.toNat ≤ info.maxmemory.toNat → info.maxmemory.toNat < 2 ^ 53 →
    DiskMonitor.IsPercentage info.memoryUsedPercent

theorem toUInt64_toDigits (n : UInt64) : toUInt64 (Nat.toDigits 10 n.toNat) = n := by
  have htext : String.ofList (Nat.toDigits 10 n.toNat) = toString (n.toNat : ℤ) := by
    rw [← String.toList_inj, String.toList_ofList]
    exact (Sql.toList_toString_nat n.toNat).symm
  rw [toUInt64, htext, stoull_toString]
  rfl

/-- A share, rounded and taken a hundred times, is a percentage. -/
theorem isPercentage_hundredfold {share : ℚ} (hshare : 0 ≤ share) (hle : share ≤ 1) :
    DiskMonitor.IsPercentage (binary64 (binary64 share * 100)) := by
  have hone : share ≤ ((1 : ℕ) : ℚ) := by
    rw [Nat.cast_one]
    exact hle
  obtain ⟨hround, hround_le⟩ := MemMonitor.round_mem_Icc
    (MemMonitor.holds_natCast 53 (show 1 < 2 ^ 53 by norm_num)) (by norm_num) hshare hone
  have hscaled := mul_le_mul_of_nonneg_right hround_le (show (0 : ℚ) ≤ 100 by norm_num)
  rw [Nat.cast_one, one_mul] at hscaled
  obtain ⟨hpercent, hpercent_le⟩ := MemMonitor.round_mem_Icc (n := ((100 : ℕ) : ℚ))
    (MemMonitor.holds_natCast 53 (by norm_num)) (by norm_num)
    (mul_nonneg hround (show (0 : ℚ) ≤ 100 by norm_num)) hscaled
  exact ⟨hpercent, by exact_mod_cast hpercent_le⟩

/-- A share of a part in a whole is a percentage. -/
theorem isPercentage_percentOf {part whole : UInt64} (hpos : 0 < whole.toNat)
    (hle : part.toNat ≤ whole.toNat) (hlt : whole.toNat < 2 ^ 53) :
    DiskMonitor.IsPercentage (percentOf part whole) := by
  rw [percentOf, binary64_natCast (hle.trans_lt hlt), binary64_natCast hlt]
  have hwhole : (0 : ℚ) < whole.toNat := by exact_mod_cast hpos
  refine isPercentage_hundredfold (div_nonneg (Nat.cast_nonneg _) hwhole.le) ?_
  rw [div_le_one hwhole]
  exact_mod_cast hle

theorem counterFields_answered (stod : List Char → Option ℚ) (t : Target) (answer : Answer) :
    ∀ p ∈ counterFields, p.2 (answered stod t answer) = infoUInt64 (parseInfo answer.info) p.1 := by
  simp only [counterFields, List.forall_mem_cons]
  exact ⟨rfl, rfl, rfl, rfl, rfl, rfl, rfl, rfl, rfl, rfl, rfl, rfl, rfl, rfl, rfl, rfl, by simp⟩

/-- The share of the hits, of an instance that answers. -/
theorem keyspaceHitPercent_answered (stod : List Char → Option ℚ) (t : Target) (answer : Answer)
    (h : (answered stod t answer).keyspaceHits.toNat +
      (answered stod t answer).keyspaceMisses.toNat < 2 ^ 53) :
    DiskMonitor.IsPercentage (answered stod t answer).keyspaceHitPercent := by
  obtain ⟨hits, hhits⟩ : ∃ hits, infoUInt64 (parseInfo answer.info) "keyspace_hits" = hits :=
    ⟨_, rfl⟩
  obtain ⟨misses, hmisses⟩ :
      ∃ misses, infoUInt64 (parseInfo answer.info) "keyspace_misses" = misses := ⟨_, rfl⟩
  have hsum : hits.toNat + misses.toNat < 2 ^ 53 := by
    rw [← hhits, ← hmisses]
    exact h
  -- the sum of the counters does not wrap around
  have htotal : (hits + misses).toNat = hits.toNat + misses.toNat := by
    rw [UInt64.toNat_add]
    exact Nat.mod_eq_of_lt (by omega)
  show DiskMonitor.IsPercentage (if 0 < infoUInt64 (parseInfo answer.info) "keyspace_hits" +
    infoUInt64 (parseInfo answer.info) "keyspace_misses" then _ else _)
  rw [hhits, hmisses]
  split
  · next hpos =>
    refine isPercentage_percentOf (UInt64.lt_iff_toNat_lt.mp hpos) ?_ (by omega)
    omega
  · exact DiskMonitor.isPercentage_zero

/-- The share of the memory, of an instance that answers. -/
theorem memoryUsedPercent_answered (stod : List Char → Option ℚ) (t : Target) (answer : Answer)
    (hle : (answered stod t answer).usedMemory.toNat ≤ (answered stod t answer).maxmemory.toNat)
    (hlt : (answered stod t answer).maxmemory.toNat < 2 ^ 53) :
    DiskMonitor.IsPercentage (answered stod t answer).memoryUsedPercent := by
  show DiskMonitor.IsPercentage (if 0 < infoUInt64 (parseInfo answer.info) "maxmemory" then
    percentOf (infoUInt64 (parseInfo answer.info) "used_memory")
      (infoUInt64 (parseInfo answer.info) "maxmemory") else 0)
  split
  · next hpos => exact isPercentage_percentOf (UInt64.lt_iff_toNat_lt.mp hpos) hle hlt
  · exact DiskMonitor.isPercentage_zero

theorem published_answered (stod : List Char → Option ℚ) (t : Target) (answer : Answer) :
    Published t (some answer) (answered stod t answer) where
  instanceName := rfl
  host := rfl
  port := rfl
  up := rfl
  down := nofun
  counter := by
    rintro es slowlogLen hanswer hproper p hp n hn
    rw [counterFields_answered stod t answer p hp, infoUInt64, Option.some.inj hanswer,
      parseInfo_infoText hproper, hn]
    exact toUInt64_toDigits n
  missing := by
    rintro es slowlogLen hanswer hproper p hp hn
    rw [counterFields_answered stod t answer p hp, infoUInt64, Option.some.inj hanswer,
      parseInfo_infoText hproper, hn]
    rfl
  hits := keyspaceHitPercent_answered stod t answer
  memory := memoryUsedPercent_answered stod t answer

theorem published_addressed (t : Target) : Published t none (addressed t) where
  instanceName := rfl
  host := rfl
  port := rfl
  up := rfl
  down := fun _ => rfl
  counter := nofun
  missing := nofun
  hits := fun _ => DiskMonitor.isPercentage_zero
  memory := fun _ _ => DiskMonitor.isPercentage_zero

end RedisMonitor

end MonitorSystem
