import MonitorSystem.Gateway.RequestTargets

/-!
# What the tools of the agent ask the gateway

A tool of the agent writes its arguments into a URL, and the gateway reads a query from it. The
two ends are different services with a language model in front of them, so the server name and
the times of a call may be any texts. `ToolCall.meaning` is what a call asks for, said of its
arguments alone: the operation with its server, its window, its page and its thresholds, or the
error that is answered instead. What the gateway reads from the requests of a call is exactly that
(`ToolCall.requests_read`): no character of an argument changes the path, ends the query, or sets a
parameter that the tool has not set. In particular no tool can name a scope.

Some arguments are not answered: a server name with a slash in it has no route, and a page, a page
size or an interval from 2³¹ on is invalid for the gateway, as is a time that it cannot read.
-/

namespace MonitorSystem

/-! ### What a call asks for -/

section Meaning

variable (t : ToolTexts) (r : ParamReaders) (now : ℤ)

/-- The time that a text of a tool means, where a blank one means the default. -/
def meantTime (name text : String) (fallback : ℤ) : Except HttpError ℤ :=
  if trimSpace text = "" then .ok fallback else orInvalid name (parseQueryTime r (trimSpace text))

/-- The window between two texts. -/
def meantWindow (start finish : String) : Except HttpError QueryWindow := do
  let finish ← meantTime r "end_time" finish now
  let start ← meantTime r "start_time" start (now - defaultQueryWindow)
  if timeAfter start finish then .error ⟨400, "start_time must be before end_time"⟩
  else .ok ⟨start, finish⟩

/-- The number of a tool, where one that is not positive means the default. -/
def meantNumber (name : String) (value fallback : ℤ) : Except HttpError ℤ :=
  let number := if 0 < value then value else fallback
  if number < 2 ^ 31 then .ok number else .error ⟨400, "invalid " ++ name⟩

/-- The threshold of a tool, as far as its text goes; one that is not positive is not set. -/
def meantThreshold (name : String) (value : Flt) : Except HttpError Flt :=
  if value.isPos then orInvalid name (r.parseFloat (t.formatG value)) else .ok (.finite 0)

/-- The options of a paged query. -/
def meantOptions (server start finish : String) (page pageSize defaultSize : ℤ) :
    Except HttpError DetailOptions := do
  let window ← meantWindow r now start finish
  let page ← meantNumber "page" page 1
  let pageSize ← meantNumber "page_size" pageSize defaultSize
  .ok ⟨server, window, page, pageSize⟩

/-- The options of a tool for details. -/
def PagedInput.meaning (input : PagedInput) : Except HttpError DetailOptions :=
  meantOptions r now input.serverName input.startTime input.endTime input.page input.pageSize 100

/-- The thresholds of a tool, which sets none of those for MySQL. -/
def MonitorAnomaliesInput.thresholds (input : MonitorAnomaliesInput) :
    Except HttpError AnomalyThreshold := do
  let cpuThreshold ← meantThreshold t r "cpu_threshold" input.cpuThreshold
  let memoryThreshold ← meantThreshold t r "mem_threshold" input.memThreshold
  let diskThreshold ← meantThreshold t r "disk_threshold" input.diskThreshold
  let changeRateThreshold ←
    meantThreshold t r "change_rate_threshold" input.changeRateThreshold
  let redisConnectionThreshold ←
    meantThreshold t r "redis_connection_threshold" input.redisConnectionThreshold
  let redisMemoryThreshold ←
    meantThreshold t r "redis_memory_threshold" input.redisMemoryThreshold
  let redisHitRateThreshold ←
    meantThreshold t r "redis_hit_rate_threshold" input.redisHitRateThreshold
  let redisReplicationLagThreshold ←
    meantThreshold t r "redis_replication_lag_threshold" input.redisReplicationLagThreshold
  let redisSlowlogGrowthThreshold ←
    meantThreshold t r "redis_slowlog_growth_threshold" input.redisSlowlogGrowthThreshold
  .ok
    { cpuThreshold, memoryThreshold, diskThreshold, changeRateThreshold,
      mysqlConnectionThreshold := .finite 0
      mysqlReplicationLagThreshold := .finite 0
      mysqlSlowQueryRateThreshold := .finite 0
      mysqlLockWaitRateThreshold := .finite 0
      mysqlBufferPoolHitThreshold := .finite 0
      redisConnectionThreshold, redisMemoryThreshold, redisHitRateThreshold,
      redisReplicationLagThreshold, redisSlowlogGrowthThreshold }

/-- The anomalies of a server that a tool asks for. -/
def MonitorAnomaliesInput.meaning (input : MonitorAnomaliesInput) (server : String) :
    Except HttpError Operation :=
  aboutServer server do
    let options ← meantOptions r now server input.startTime input.endTime input.page
      input.pageSize 50
    let threshold ← input.thresholds t r
    .ok (.anomalies options threshold)

/-- The kinds of details, by the names that the tool accepts. -/
def detailKinds : List (List String × (DetailOptions → Operation)) :=
  [(["net", "network"], .netDetail), (["disk"], .diskDetail), (["mem", "memory"], .memDetail),
    (["softirq", "soft_irq"], .softIrqDetail), (["mysql", "mysql_detail", "db"], .mysqlDetail),
    (["redis", "redis_detail", "cache"], .redisDetail)]

/-- The operation of a kind. -/
def meantDetail (kind : String) : Except String (DetailOptions → Operation) :=
  match detailKinds.find? fun k => lowerText t.toLower (trimSpace kind) ∈ k.1 with
  | some k => .ok k.2
  | none =>
    .error ("unsupported detail kind " ++ t.quote kind ++
      ", expected net, disk, mem, softirq, mysql, or redis")

/-- What a call about a server asks for, whose name must not be blank. -/
def meantNamed (server : String) (operation : Except String (Except HttpError Operation)) :
    Except String (List (Except HttpError Operation)) :=
  if trimSpace server = "" then .error "server_name is required"
  else operation.map fun o => [aboutServer server o]

/-- **What a call asks for**, one operation or error for each of its requests, or the error with
which it ends before it asks. -/
def ToolCall.meaning (names : List String) :
    ToolCall → Except String (List (Except HttpError Operation))
  | .clusterOverview => .ok [.ok .latest]
  | .anomalies input =>
    if trimSpace input.serverName ≠ "" then .ok [input.meaning t r now input.serverName]
    else .ok (.ok .latest :: names.map (input.meaning t r now))
  | .performance input =>
    meantNamed input.serverName
      (.ok ((meantOptions r now input.serverName input.startTime input.endTime input.page
        input.pageSize 100).map .performance))
  | .trend input =>
    meantNamed input.serverName
      (.ok (do
        let window ← meantWindow r now input.startTime input.endTime
        let intervalSeconds ← meantNumber "interval_seconds" input.intervalSeconds 0
        .ok (.trend input.serverName window intervalSeconds)))
  | .detail input =>
    meantNamed input.serverName
      ((meantDetail t input.kind).map fun operation =>
        (input.toPagedInput.meaning r now).map operation)
  | .redisDetail input =>
    meantNamed input.serverName (.ok ((PagedInput.meaning r now input).map .redisDetail))
  | .mysqlDetail input =>
    meantNamed input.serverName (.ok ((PagedInput.meaning r now input).map .mysqlDetail))

end Meaning

/-! ### The parameters that a tool sets -/

section Parameters

theorem queryParam_set_self (v : UrlValues) (key value : String) :
    queryParam (v.set key value).values key = value := by
  rw [queryParam, UrlValues.values_set, Function.update_self]
  rfl

theorem queryParam_set_of_ne {k key : String} (h : k ≠ key) (v : UrlValues) (value : String) :
    queryParam (v.set key value).values k = queryParam v.values k := by
  rw [queryParam, UrlValues.values_set, Function.update_of_ne h]
  rfl

theorem queryParam_empty (k : String) : queryParam UrlValues.empty.values k = "" := rfl

/-- A text that is set unless it is blank: a blank one leaves the empty value of the key. -/
theorem queryParam_trimmed {v : UrlValues} {key : String} (h : queryParam v.values key = "")
    (text : String) :
    queryParam (if trimSpace text ≠ "" then v.set key (trimSpace text) else v).values key =
      trimSpace text := by
  split_ifs with htext
  · rw [queryParam_set_self]
  · rw [h, of_not_not htext]

theorem queryParam_trimmed_of_ne {k key : String} (h : k ≠ key) (v : UrlValues) (text : String) :
    queryParam (if trimSpace text ≠ "" then v.set key (trimSpace text) else v).values k =
      queryParam v.values k := by
  split_ifs
  · rw [queryParam_set_of_ne h]
  · rfl

theorem queryParam_addTimeRange_of_ne {k : String} (hstart : k ≠ "start_time")
    (hfinish : k ≠ "end_time") (v : UrlValues) (start finish : String) :
    queryParam (addTimeRange v start finish).values k = queryParam v.values k :=
  (queryParam_trimmed_of_ne hfinish _ finish).trans (queryParam_trimmed_of_ne hstart v start)

theorem queryParam_addTimeRange_start (start finish : String) :
    queryParam (addTimeRange .empty start finish).values "start_time" = trimSpace start :=
  (queryParam_trimmed_of_ne (by decide) _ finish).trans (queryParam_trimmed rfl start)

theorem queryParam_addTimeRange_finish (start finish : String) :
    queryParam (addTimeRange .empty start finish).values "end_time" = trimSpace finish :=
  queryParam_trimmed (queryParam_trimmed_of_ne (by decide) _ start) finish

theorem queryParam_addInt_of_ne {k key : String} (h : k ≠ key) (v : UrlValues)
    (value fallback : ℤ) :
    queryParam (addInt v key value fallback).values k = queryParam v.values k := by
  rw [addInt]
  split_ifs
  · rw [queryParam_set_of_ne h]
  · rw [queryParam_set_of_ne h]
  · rfl

/-- The text of a number, of its default, or of neither. -/
def numberText (value fallback : ℤ) : String :=
  if 0 < value then toString value else if 0 < fallback then toString fallback else ""

theorem queryParam_addInt_self {v : UrlValues} {key : String} (h : queryParam v.values key = "")
    (value fallback : ℤ) :
    queryParam (addInt v key value fallback).values key = numberText value fallback := by
  rw [addInt, numberText]
  split_ifs
  · rw [queryParam_set_self]
  · rw [queryParam_set_self]
  · exact h

variable (t : ToolTexts)

theorem queryParam_addFloat_of_ne {k key : String} (h : k ≠ key) (v : UrlValues) (value : Flt) :
    queryParam (addFloat t v key value).values k = queryParam v.values k := by
  rw [addFloat]
  split_ifs
  · rw [queryParam_set_of_ne h]
  · rfl

/-- The text of a threshold, or of none. -/
def thresholdText (value : Flt) : String := if value.isPos then t.formatG value else ""

theorem queryParam_addFloat_self {v : UrlValues} {key : String}
    (h : queryParam v.values key = "") (value : Flt) :
    queryParam (addFloat t v key value).values key = thresholdText t value := by
  rw [addFloat, thresholdText]
  split_ifs
  · rw [queryParam_set_self]
  · exact h

/-- Several thresholds, one after the other. -/
def addFloats (v : UrlValues) (fields : List (String × Flt)) : UrlValues :=
  fields.foldl (fun v field => addFloat t v field.1 field.2) v

theorem queryParam_addFloats_of_notMem {k : String} {fields : List (String × Flt)}
    (h : k ∉ fields.map (·.1)) (v : UrlValues) :
    queryParam (addFloats t v fields).values k = queryParam v.values k := by
  induction fields generalizing v with
  | nil => rfl
  | cons field fields ih =>
    simp only [List.map_cons, List.mem_cons, not_or] at h
    exact (ih h.2 _).trans (queryParam_addFloat_of_ne t h.1 v field.2)

/-- Each of them is set under its own key. -/
theorem queryParam_addFloats {fields : List (String × Flt)} (hnodup : (fields.map (·.1)).Nodup)
    (field : String × Flt) (hfield : field ∈ fields) {v : UrlValues}
    (hv : queryParam v.values field.1 = "") :
    queryParam (addFloats t v fields).values field.1 = thresholdText t field.2 := by
  induction fields generalizing v with
  | nil => exact absurd hfield List.not_mem_nil
  | cons first fields ih =>
    obtain ⟨hfirst, hrest⟩ := List.nodup_cons.mp hnodup
    rcases List.mem_cons.mp hfield with rfl | hmem
    · -- the fields behind it have other keys
      exact (queryParam_addFloats_of_notMem t hfirst _).trans
        (queryParam_addFloat_self t hv field.2)
    · have hne : field.1 ≠ first.1 := by
        intro he
        exact hfirst (List.mem_map.mpr ⟨field, hmem, he⟩)
      exact ih hrest hmem ((queryParam_addFloat_of_ne t hne v first.2).trans hv)

end Parameters

/-! ### What is read of the parameters -/

section Reading

variable (t : ToolTexts) (r : ParamReaders) (now : ℤ)

/-- The digits of a number are read back. -/
theorem readDecimal_toDigits (n : ℕ) : readDecimal (Nat.toDigits 10 n) = some n := by
  have hdigits : (Nat.toDigits 10 n).all Char.isDigit = true :=
    List.all_eq_true.mpr fun c hc => Nat.isDigit_of_mem_toDigits (by decide) (by decide) hc
  rw [readDecimal, if_pos ⟨Nat.toDigits_ne_nil, hdigits⟩, Nat.ofDigitChars_ten_toDigits]

/-- A text that begins with a digit has no sign. -/
theorem parseInt_of_digits {bits : ℕ} {s : String} {l : List Char} (hs : s.toList = l)
    (hl : ∀ c ∈ l, c.isDigit = true) :
    parseInt bits s =
      (readDecimal l).bind fun n => if n < 2 ^ (bits - 1) then some (n : ℤ) else none := by
  have hminus : ∀ rest, l ≠ '-' :: rest := by
    rintro rest rfl
    exact absurd (hl '-' List.mem_cons_self) (by decide)
  have hplus : ∀ rest, l ≠ '+' :: rest := by
    rintro rest rfl
    exact absurd (hl '+' List.mem_cons_self) (by decide)
  rw [parseInt, hs]
  split
  · exact absurd rfl (hminus _)
  · exact absurd rfl (hplus _)
  · rfl

theorem parseInt_toString (bits : ℕ) {value : ℤ} (h : 0 < value) :
    parseInt bits (toString value) = if value < 2 ^ (bits - 1) then some value else none := by
  obtain ⟨n, rfl⟩ := Int.eq_ofNat_of_zero_le h.le
  have htext : (toString (n : ℤ)).toList = Nat.toDigits 10 n := Nat.toList_repr
  have hdigits : ∀ c ∈ Nat.toDigits 10 n, c.isDigit = true := fun c hc =>
    Nat.isDigit_of_mem_toDigits (by decide) (by decide) hc
  rw [parseInt_of_digits htext hdigits, readDecimal_toDigits, Option.bind_some]
  exact if_congr (by norm_cast) rfl rfl

theorem toString_ne_empty {value : ℤ} (h : 0 < value) : toString value ≠ "" := by
  obtain ⟨n, rfl⟩ := Int.eq_ofNat_of_zero_le h.le
  intro hempty
  have htext : (toString (n : ℤ)).toList = Nat.toDigits 10 n := Nat.toList_repr
  rw [hempty] at htext
  exact Nat.toDigits_ne_nil htext.symm

/-- **A number of a tool is read** if it fits into 32 bits. -/
theorem parseOptionalInt32_numberText {q : Values} {key : String} {value fallback missing : ℤ}
    (hq : queryParam q key = numberText value fallback)
    (hmissing : 0 < fallback ∨ missing = fallback) (hsmall : fallback < 2 ^ 31) :
    parseOptionalInt32 q key missing = meantNumber key value fallback := by
  have hread : ∀ {number : ℤ}, 0 < number → queryParam q key = toString number →
      parseOptionalInt32 q key missing =
        if number < 2 ^ 31 then .ok number else .error ⟨400, "invalid " ++ key⟩ := by
    intro number hpos htext
    rw [parseOptionalInt32, parseOptional, htext, if_neg (toString_ne_empty hpos),
      parseInt_toString 32 hpos]
    by_cases hlt : number < 2 ^ 31
    · rw [if_pos hlt, if_pos hlt]
      rfl
    · rw [if_neg hlt, if_neg hlt]
      rfl
  rw [numberText] at hq
  rw [meantNumber]
  split_ifs at hq with hvalue hfallback
  · rw [hread hvalue hq, if_pos hvalue]
  · rw [hread hfallback hq, if_neg hvalue]
  · -- without a default nothing is sent, and the gateway takes its own
    obtain rfl : missing = fallback := hmissing.resolve_left hfallback
    rw [parseOptionalInt32, parseOptional, if_pos hq, if_neg hvalue, if_pos hsmall]

theorem parseOptionalFloat32_thresholdText {q : Values} {key : String} {value : Flt}
    (hq : queryParam q key = thresholdText t value) :
    parseOptionalFloat32 r q key (.finite 0) = meantThreshold t r key value := by
  rw [thresholdText] at hq
  rw [parseOptionalFloat32, parseOptional, meantThreshold, hq]
  by_cases hpos : value.isPos = true
  · rw [if_pos hpos, if_neg (t.formatG_ne value), if_pos hpos]
  · rw [if_neg hpos, if_pos rfl, if_neg hpos]

theorem parseOptionalFloat32_unset {q : Values} {key : String} (hq : queryParam q key = "")
    (fallback : Flt) : parseOptionalFloat32 r q key fallback = .ok fallback :=
  if_pos hq

/-- **The window of a tool is read.** -/
theorem parseTimeRange_eq {q : Values} {start finish : String}
    (hstart : queryParam q "start_time" = trimSpace start)
    (hfinish : queryParam q "end_time" = trimSpace finish) :
    parseTimeRange r now q = meantWindow r now start finish := by
  have hread : ∀ {key text : String} {fallback : ℤ}, queryParam q key = trimSpace text →
      parseOptional (parseQueryTime r) q key fallback = meantTime r key text fallback := by
    intro key text fallback hq
    rw [parseOptional, meantTime, hq]
  rw [parseTimeRange, meantWindow, hread hfinish, hread hstart]

/-- **The options of a paged query are read.** -/
theorem parseDetail_eq {q : Values} {start finish : String} {page pageSize defaultSize : ℤ}
    (server : String) (hstart : queryParam q "start_time" = trimSpace start)
    (hfinish : queryParam q "end_time" = trimSpace finish)
    (hpage : queryParam q "page" = numberText page 1)
    (hpageSize : queryParam q "page_size" = numberText pageSize defaultSize)
    (hpos : 0 < defaultSize) (hsmall : defaultSize < 2 ^ 31) :
    parseDetail r now q server =
      meantOptions r now server start finish page pageSize defaultSize := by
  rw [parseDetail, meantOptions, parseTimeRange_eq r now hstart hfinish, parsePagination,
    parseOptionalInt32_numberText hpage (Or.inl one_pos) (by decide),
    parseOptionalInt32_numberText hpageSize (Or.inl hpos) hsmall]
  rcases meantWindow r now start finish with e | window
  · rfl
  rcases meantNumber "page" page 1 with e | number
  · rfl
  rcases meantNumber "page_size" pageSize defaultSize with e | size <;> rfl

end Reading

/-! ### The queries of the tools -/

section Tools

variable (t : ToolTexts) (r : ParamReaders) (now : ℤ)

/-- A key that none of the tools for details and series sets. -/
theorem queryParam_pagedQuery_of_ne {k : String} (hstart : k ≠ "start_time")
    (hfinish : k ≠ "end_time") (hpage : k ≠ "page") (hpageSize : k ≠ "page_size")
    (input : PagedInput) : queryParam (pagedQuery input).values k = "" := by
  rw [pagedQuery, queryParam_addInt_of_ne hpageSize, queryParam_addInt_of_ne hpage,
    queryParam_addTimeRange_of_ne hstart hfinish, queryParam_empty]

theorem parseDetail_pagedQuery (input : PagedInput) (server : String) :
    parseDetail r now (pagedQuery input).values server =
      meantOptions r now server input.startTime input.endTime input.page input.pageSize 100 := by
  refine parseDetail_eq r now server ?_ ?_ ?_ ?_ (by decide) (by decide)
  · rw [pagedQuery, queryParam_addInt_of_ne (by decide), queryParam_addInt_of_ne (by decide),
      queryParam_addTimeRange_start]
  · rw [pagedQuery, queryParam_addInt_of_ne (by decide), queryParam_addInt_of_ne (by decide),
      queryParam_addTimeRange_finish]
  · rw [pagedQuery, queryParam_addInt_of_ne (by decide), queryParam_addInt_self]
    exact queryParam_addTimeRange_of_ne (by decide) (by decide) _ _ _
  · rw [pagedQuery, queryParam_addInt_self]
    rw [queryParam_addInt_of_ne (by decide),
      queryParam_addTimeRange_of_ne (by decide) (by decide), queryParam_empty]

/-- The query of the tool for the trend. -/
theorem seriesQuery_interval (input : MonitorSeriesInput) :
    seriesQuery input false true =
      addInt (addTimeRange .empty input.startTime input.endTime) "interval_seconds"
        input.intervalSeconds 0 :=
  rfl

theorem readOperation_trend (input : MonitorSeriesInput) (server : String) :
    readOperation r now (seriesQuery input false true).values server .trend = (do
      let window ← meantWindow r now input.startTime input.endTime
      let intervalSeconds ← meantNumber "interval_seconds" input.intervalSeconds 0
      .ok (.trend server window intervalSeconds)) := by
  have hstart : queryParam (seriesQuery input false true).values "start_time" =
      trimSpace input.startTime := by
    rw [seriesQuery_interval, queryParam_addInt_of_ne (by decide), queryParam_addTimeRange_start]
  have hfinish : queryParam (seriesQuery input false true).values "end_time" =
      trimSpace input.endTime := by
    rw [seriesQuery_interval, queryParam_addInt_of_ne (by decide), queryParam_addTimeRange_finish]
  have hinterval : queryParam (seriesQuery input false true).values "interval_seconds" =
      numberText input.intervalSeconds 0 := by
    rw [seriesQuery_interval, queryParam_addInt_self]
    exact queryParam_addTimeRange_of_ne (by decide) (by decide) _ _ _
  rw [readOperation, parseTimeRange_eq r now hstart hfinish,
    parseOptionalInt32_numberText hinterval (Or.inr rfl) (by decide)]

/-- The thresholds of the tool for anomalies, with their keys. -/
def MonitorAnomaliesInput.fields (input : MonitorAnomaliesInput) : List (String × Flt) :=
  [("cpu_threshold", input.cpuThreshold), ("mem_threshold", input.memThreshold),
    ("disk_threshold", input.diskThreshold),
    ("change_rate_threshold", input.changeRateThreshold),
    ("redis_connection_threshold", input.redisConnectionThreshold),
    ("redis_memory_threshold", input.redisMemoryThreshold),
    ("redis_hit_rate_threshold", input.redisHitRateThreshold),
    ("redis_replication_lag_threshold", input.redisReplicationLagThreshold),
    ("redis_slowlog_growth_threshold", input.redisSlowlogGrowthThreshold)]

/-- The query without the thresholds. -/
def anomalyBase (input : MonitorAnomaliesInput) : UrlValues :=
  addInt (addInt (addTimeRange .empty input.startTime input.endTime) "page" input.page 1)
    "page_size" input.pageSize 50

theorem anomalyQuery_eq (input : MonitorAnomaliesInput) :
    anomalyQuery t input = addFloats t (anomalyBase input) input.fields :=
  rfl

/-- The keys of the thresholds. -/
def thresholdKeys : List String :=
  ["cpu_threshold", "mem_threshold", "disk_threshold", "change_rate_threshold",
    "redis_connection_threshold", "redis_memory_threshold", "redis_hit_rate_threshold",
    "redis_replication_lag_threshold", "redis_slowlog_growth_threshold"]

theorem map_fields (input : MonitorAnomaliesInput) : input.fields.map (·.1) = thresholdKeys :=
  rfl

theorem nodup_thresholdKeys : thresholdKeys.Nodup := by decide +kernel

theorem queryParam_anomalyBase_of_ne {k : String} (hpage : k ≠ "page") (hpageSize : k ≠ "page_size")
    (input : MonitorAnomaliesInput) :
    queryParam (anomalyBase input).values k =
      queryParam (addTimeRange .empty input.startTime input.endTime).values k := by
  rw [anomalyBase, queryParam_addInt_of_ne hpageSize, queryParam_addInt_of_ne hpage]

theorem queryParam_anomalyQuery_of_notMem {k : String} (hk : k ∉ thresholdKeys)
    (input : MonitorAnomaliesInput) :
    queryParam (anomalyQuery t input).values k = queryParam (anomalyBase input).values k := by
  rw [anomalyQuery_eq, queryParam_addFloats_of_notMem]
  rwa [map_fields]

/-- A key that the tool for anomalies does not set. -/
theorem queryParam_anomalyQuery_unset {k : String} (hstart : k ≠ "start_time")
    (hfinish : k ≠ "end_time") (hpage : k ≠ "page") (hpageSize : k ≠ "page_size")
    (hk : k ∉ thresholdKeys) (input : MonitorAnomaliesInput) :
    queryParam (anomalyQuery t input).values k = "" := by
  rw [queryParam_anomalyQuery_of_notMem t hk, queryParam_anomalyBase_of_ne hpage hpageSize,
    queryParam_addTimeRange_of_ne hstart hfinish, queryParam_empty]

/-- **Each threshold of the tool is read.** -/
theorem parseThreshold_anomalyQuery {input : MonitorAnomaliesInput} {field : String × Flt}
    (h : field ∈ input.fields) :
    parseOptionalFloat32 r (anomalyQuery t input).values field.1 (.finite 0) =
      meantThreshold t r field.1 field.2 := by
  have hkey : field.1 ∈ thresholdKeys := by
    rw [← map_fields input]
    exact List.mem_map_of_mem h
  have hother : ∀ k ∈ thresholdKeys, k ≠ "start_time" ∧ k ≠ "end_time" ∧ k ≠ "page" ∧
      k ≠ "page_size" := by
    decide +kernel
  obtain ⟨hstart, hfinish, hpage, hpageSize⟩ := hother field.1 hkey
  refine parseOptionalFloat32_thresholdText t r ?_
  rw [anomalyQuery_eq]
  refine queryParam_addFloats t (map_fields input ▸ nodup_thresholdKeys) field h ?_
  rw [queryParam_anomalyBase_of_ne hpage hpageSize,
    queryParam_addTimeRange_of_ne hstart hfinish, queryParam_empty]

theorem parseDetail_anomalyQuery (input : MonitorAnomaliesInput) (server : String) :
    parseDetail r now (anomalyQuery t input).values server =
      meantOptions r now server input.startTime input.endTime input.page input.pageSize 50 := by
  refine parseDetail_eq r now server ?_ ?_ ?_ ?_ (by decide) (by decide)
  · rw [queryParam_anomalyQuery_of_notMem t (by decide +kernel),
      queryParam_anomalyBase_of_ne (by decide) (by decide), queryParam_addTimeRange_start]
  · rw [queryParam_anomalyQuery_of_notMem t (by decide +kernel),
      queryParam_anomalyBase_of_ne (by decide) (by decide), queryParam_addTimeRange_finish]
  · rw [queryParam_anomalyQuery_of_notMem t (by decide +kernel), anomalyBase,
      queryParam_addInt_of_ne (by decide), queryParam_addInt_self]
    exact queryParam_addTimeRange_of_ne (by decide) (by decide) _ _ _
  · rw [queryParam_anomalyQuery_of_notMem t (by decide +kernel), anomalyBase,
      queryParam_addInt_self]
    rw [queryParam_addInt_of_ne (by decide),
      queryParam_addTimeRange_of_ne (by decide) (by decide), queryParam_empty]

/-- **The thresholds of the tool are read**, and those for MySQL are not set. -/
theorem parseThresholds_anomalyQuery (input : MonitorAnomaliesInput) :
    parseThresholds r (anomalyQuery t input).values = input.thresholds t r := by
  have hunset : ∀ key ∈ ["mysql_connection_threshold", "mysql_replication_lag_threshold",
      "mysql_slow_query_rate_threshold", "mysql_lock_wait_rate_threshold",
      "mysql_buffer_pool_hit_threshold"],
      parseOptionalFloat32 r (anomalyQuery t input).values key (.finite 0) = .ok (.finite 0) := by
    intro key hkey
    have hother : ∀ key ∈ ["mysql_connection_threshold", "mysql_replication_lag_threshold",
        "mysql_slow_query_rate_threshold", "mysql_lock_wait_rate_threshold",
        "mysql_buffer_pool_hit_threshold"], key ≠ "start_time" ∧ key ≠ "end_time" ∧
        key ≠ "page" ∧ key ≠ "page_size" ∧ key ∉ thresholdKeys := by
      decide +kernel
    obtain ⟨hstart, hfinish, hpage, hpageSize, hk⟩ := hother key hkey
    exact parseOptionalFloat32_unset r
      (queryParam_anomalyQuery_unset t hstart hfinish hpage hpageSize hk input) _
  have hset : ∀ field ∈ input.fields,
      parseOptionalFloat32 r (anomalyQuery t input).values field.1 (.finite 0) =
        meantThreshold t r field.1 field.2 := fun _ h => parseThreshold_anomalyQuery t r h
  simp only [MonitorAnomaliesInput.fields, List.forall_mem_cons] at hset
  simp only [List.forall_mem_cons] at hunset
  obtain ⟨h1, h2, h3, h4, h5, h6, h7, h8, h9, -⟩ := hset
  obtain ⟨k1, k2, k3, k4, k5, -⟩ := hunset
  rw [parseThresholds, MonitorAnomaliesInput.thresholds, h1, h2, h3, h4, h5, h6, h7, h8, h9, k1,
    k2, k3, k4, k5]
  rfl

/-- The route of a kind, and what its handler makes of the options. -/
theorem detailEndpoint_eq (kind : String) :
    (∃ e, detailEndpoint t kind = .error e ∧ meantDetail t kind = .error e) ∨
      ∃ name endpoint operation, detailEndpoint t kind = .ok name ∧
        meantDetail t kind = .ok operation ∧ (name, endpoint) ∈ serverRoutes ∧
        ∀ r now q server,
          readOperation r now q server endpoint = (parseDetail r now q server).map operation := by
  rw [detailEndpoint, meantDetail]
  generalize lowerText t.toLower (trimSpace kind) = name
  split
  any_goals exact Or.inr ⟨"net-detail", .netDetail, .netDetail, rfl, rfl, by decide +kernel,
    fun _ _ _ _ => rfl⟩
  any_goals exact Or.inr ⟨"disk-detail", .diskDetail, .diskDetail, rfl, rfl, by decide +kernel,
    fun _ _ _ _ => rfl⟩
  any_goals exact Or.inr ⟨"mem-detail", .memDetail, .memDetail, rfl, rfl, by decide +kernel,
    fun _ _ _ _ => rfl⟩
  any_goals exact Or.inr ⟨"softirq-detail", .softIrqDetail, .softIrqDetail, rfl, rfl,
    by decide +kernel, fun _ _ _ _ => rfl⟩
  any_goals exact Or.inr ⟨"mysql-detail", .mysqlDetail, .mysqlDetail, rfl, rfl,
    by decide +kernel, fun _ _ _ _ => rfl⟩
  any_goals exact Or.inr ⟨"redis-detail", .redisDetail, .redisDetail, rfl, rfl,
    by decide +kernel, fun _ _ _ _ => rfl⟩
  -- a name of no kind is in none of the lists
  have hnone : (detailKinds.find? fun k => decide (name ∈ k.1)) = none := by
    rw [List.find?_eq_none]
    intro k hk hname
    have hmem := of_decide_eq_true hname
    simp only [detailKinds, List.mem_cons, List.not_mem_nil, or_false] at hk
    rcases hk with rfl | rfl | rfl | rfl | rfl | rfl <;>
      simp only [List.mem_cons, List.not_mem_nil, or_false] at hmem <;> tauto
  rw [hnone]
  exact Or.inl ⟨_, rfl, rfl⟩

/-- A request that keeps to the arguments of the tool: it names no scope. -/
structure Unscoped (q : Values) : Prop where
  tenant : queryParam q "tenant_id" = ""
  team : queryParam q "team_id" = ""
  cluster : queryParam q "cluster_id" = ""

theorem unscoped_pagedQuery (input : PagedInput) : Unscoped (pagedQuery input).values where
  tenant := queryParam_pagedQuery_of_ne (by decide) (by decide) (by decide) (by decide) input
  team := queryParam_pagedQuery_of_ne (by decide) (by decide) (by decide) (by decide) input
  cluster := queryParam_pagedQuery_of_ne (by decide) (by decide) (by decide) (by decide) input

theorem unscoped_seriesQuery (input : MonitorSeriesInput) :
    Unscoped (seriesQuery input false true).values := by
  have hunset : ∀ k ∈ ["tenant_id", "team_id", "cluster_id"],
      queryParam (seriesQuery input false true).values k = "" := by
    intro k hk
    have hother : ∀ k ∈ ["tenant_id", "team_id", "cluster_id"],
        k ≠ "interval_seconds" ∧ k ≠ "start_time" ∧ k ≠ "end_time" := by
      decide +kernel
    obtain ⟨hinterval, hstart, hfinish⟩ := hother k hk
    rw [seriesQuery_interval, queryParam_addInt_of_ne hinterval,
      queryParam_addTimeRange_of_ne hstart hfinish, queryParam_empty]
  exact ⟨hunset _ (by simp), hunset _ (by simp), hunset _ (by simp)⟩

theorem unscoped_anomalyQuery (input : MonitorAnomaliesInput) :
    Unscoped (anomalyQuery t input).values where
  tenant := queryParam_anomalyQuery_unset t (by decide) (by decide) (by decide) (by decide)
    (by decide +kernel) input
  team := queryParam_anomalyQuery_unset t (by decide) (by decide) (by decide) (by decide)
    (by decide +kernel) input
  cluster := queryParam_anomalyQuery_unset t (by decide) (by decide) (by decide) (by decide)
    (by decide +kernel) input

end Tools

/-! ### The requests of a call -/

section Calls

variable (t : ToolTexts) (r : ParamReaders) (now : ℤ) (claims : Claims) (a : GatewayAddress)

/-- What the gateway reads from a request that is sent to an address. -/
def received (request : ToolRequest) : Option HttpQuery :=
  readRequest r now claims (requestTarget (buildAPIGatewayURL a.baseURL request))

/-- A query of the tokens' own scope. -/
def plainQuery (operation : Except HttpError Operation) : HttpQuery :=
  { claims := some claims, operation }

theorem received_serverPath {name : String} {endpoint : Endpoint}
    (hroute : (name, endpoint) ∈ serverRoutes) (server : String) {v : UrlValues}
    (h : Unscoped v.values) :
    received r now claims a ⟨serverPath server name, v⟩ =
      some (plainQuery claims
        (aboutServer server (readOperation r now v.values server endpoint))) :=
  readRequest_serverPath hroute r now claims a server v h.tenant h.team h.cluster

theorem received_anomalies (input : MonitorAnomaliesInput) (server : String) :
    received r now claims a ⟨serverPath server "anomalies", anomalyQuery t input⟩ =
      some (plainQuery claims (input.meaning t r now server)) := by
  have hroute : ("anomalies", Endpoint.anomalies) ∈ serverRoutes := by decide +kernel
  rw [received_serverPath r now claims a hroute server (unscoped_anomalyQuery t input),
    readOperation, parseDetail_anomalyQuery, parseThresholds_anomalyQuery]
  rfl

theorem received_pagedQuery {name : String} {endpoint : Endpoint}
    (hroute : (name, endpoint) ∈ serverRoutes) {operation : DetailOptions → Operation}
    (hread : ∀ r now q server,
      readOperation r now q server endpoint = (parseDetail r now q server).map operation)
    (input : PagedInput) :
    received r now claims a ⟨serverPath input.serverName name, pagedQuery input⟩ =
      some (plainQuery claims
        (aboutServer input.serverName ((input.meaning r now).map operation))) := by
  rw [received_serverPath r now claims a hroute _ (unscoped_pagedQuery input), hread,
    parseDetail_pagedQuery]
  rfl

theorem received_trend (input : MonitorSeriesInput) :
    received r now claims a
        ⟨serverPath input.serverName "trend", seriesQuery input false true⟩ =
      some (plainQuery claims (aboutServer input.serverName (do
        let window ← meantWindow r now input.startTime input.endTime
        let intervalSeconds ← meantNumber "interval_seconds" input.intervalSeconds 0
        .ok (.trend input.serverName window intervalSeconds)))) := by
  have hroute : ("trend", Endpoint.trend) ∈ serverRoutes := by decide +kernel
  rw [received_serverPath r now claims a hroute _ (unscoped_seriesQuery input),
    readOperation_trend]

/-- A call that sends one request about a server. -/
theorem named_received {server : String} {request : Except String ToolRequest}
    {operation : Except String (Except HttpError Operation)}
    (h : request.map (received r now claims a) =
      operation.map fun o => some (plainQuery claims (aboutServer server o))) :
    (namedRequest server request).map (List.map (received r now claims a)) =
      (meantNamed server operation).map (List.map fun o => some (plainQuery claims o)) := by
  rw [namedRequest, meantNamed]
  split_ifs
  · rfl
  · rcases request with e | request <;> rcases operation with e' | operation
    · exact congrArg Except.error (Except.error.inj h)
    · cases h
    · cases h
    · exact congrArg (fun o => Except.ok [o]) (Except.ok.inj h)

/-- **What the gateway reads from the requests of a call is what the call asks for**, whatever the
texts in its arguments are; and no tool names a scope. -/
theorem ToolCall.requests_read (names : List String) (call : ToolCall) :
    (call.requests t names).map (List.map (received r now claims a)) =
      (call.meaning t r now names).map (List.map fun o => some (plainQuery claims o)) := by
  have hoverview : received r now claims a overviewRequest =
      some (plainQuery claims (.ok .latest)) := readRequest_overview r now claims a
  rcases call with _ | input | input | input | input | input | input
  · exact congrArg (fun o => Except.ok [o]) hoverview
  · rw [requests, meaning]
    split_ifs with hname
    · exact congrArg (fun o => Except.ok [o]) (received_anomalies t r now claims a input _)
    · refine congrArg Except.ok ?_
      rw [List.map_cons, List.map_cons, List.map_map, List.map_map, hoverview]
      refine congrArg _ (List.map_congr_left fun name _ => ?_)
      exact received_anomalies t r now claims a input name
  · refine named_received r now claims a (congrArg Except.ok ?_)
    have hroute : ("performance", Endpoint.performance) ∈ serverRoutes := by decide +kernel
    exact received_pagedQuery r now claims a hroute (fun _ _ _ _ => rfl)
      ⟨input.serverName, input.startTime, input.endTime, input.page, input.pageSize⟩
  · exact named_received r now claims a (congrArg Except.ok (received_trend r now claims a input))
  · refine named_received r now claims a ?_
    rcases detailEndpoint_eq t input.kind with ⟨e, hsent, hmeant⟩ |
      ⟨name, endpoint, operation, hsent, hmeant, hroute, hread⟩
    · rw [hsent, hmeant]
      rfl
    · rw [hsent, hmeant]
      exact congrArg Except.ok
        (received_pagedQuery r now claims a hroute hread input.toPagedInput)
  · refine named_received r now claims a (congrArg Except.ok ?_)
    have hroute : ("redis-detail", Endpoint.redisDetail) ∈ serverRoutes := by decide +kernel
    exact received_pagedQuery r now claims a hroute (fun _ _ _ _ => rfl) input
  · refine named_received r now claims a (congrArg Except.ok ?_)
    have hroute : ("mysql-detail", Endpoint.mysqlDetail) ∈ serverRoutes := by decide +kernel
    exact received_pagedQuery r now claims a hroute (fun _ _ _ _ => rfl) input

end Calls

end MonitorSystem
