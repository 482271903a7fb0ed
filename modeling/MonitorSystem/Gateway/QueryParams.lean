import MonitorSystem.Gateway.QueryHandler
import MonitorSystem.UrlText

/-!
# The query parameters of the gateway

How the gateway reads a request (`api_gateway/internal/handler/router.go` and `query.go`): the
route that its path belongs to, the server in it, and the parameters of its query, each with its
default and its error.

The router compares the segments of the path without its escapes, so a server name with a slash
in it is more than one segment and belongs to no route. The first value of a parameter counts, and
an empty one is a missing one. Reading a time in RFC 3339 and a floating-point number, and the
lower case of a character, are parameters.

`readRequest` makes of a request what `QueryGateway.handle` works on. It says nothing about a
request in which a parameter or the server is not a text in UTF-8.
-/

namespace MonitorSystem

open Percent

/-- What the libraries make of a parameter: `time.Parse(time.RFC3339, …)`, in nanoseconds,
`strconv.ParseFloat(…, 32)`, and the lower case of a character. -/
structure ParamReaders where
  rfc3339 : String → Option ℤ
  parseFloat : String → Option Flt
  toLower : Char → Char

/-! ### Numbers -/

/-- The number of a text of decimal digits. -/
def readDecimal (l : List Char) : Option ℕ :=
  if l ≠ [] ∧ l.all Char.isDigit = true then some (Nat.ofDigitChars 10 l 0) else none

/-- `strconv.ParseInt(s, 10, bits)`. -/
def parseInt (bits : ℕ) (s : String) : Option ℤ :=
  match s.toList with
  | '-' :: l => (readDecimal l).bind fun n => if n ≤ 2 ^ (bits - 1) then some (-n) else none
  | '+' :: l => (readDecimal l).bind fun n => if n < 2 ^ (bits - 1) then some n else none
  | l => (readDecimal l).bind fun n => if n < 2 ^ (bits - 1) then some n else none

/-! ### Parameters -/

/-- `c.Query`. -/
def queryParam (q : Values) (key : String) : String := (q key).headD ""

/-- `c.DefaultQuery`, which takes an empty value for what it is. -/
def defaultQueryParam (q : Values) (key fallback : String) : String := (q key).headD fallback

/-- What has been parsed, or the error that names the parameter. -/
def orInvalid {α : Type} (key : String) : Option α → Except HttpError α
  | some parsed => .ok parsed
  | none => .error ⟨400, "invalid " ++ key⟩

/-- A parameter that may be missing, with what it is parsed by. -/
def parseOptional {α : Type} (parse : String → Option α) (q : Values) (key : String)
    (fallback : α) : Except HttpError α :=
  if queryParam q key = "" then .ok fallback else orInvalid key (parse (queryParam q key))

/-- `parseOptionalInt32`. -/
def parseOptionalInt32 (q : Values) (key : String) (fallback : ℤ) : Except HttpError ℤ :=
  parseOptional (parseInt 32) q key fallback

/-- `parseOptionalFloat32`. -/
def parseOptionalFloat32 (r : ParamReaders) (q : Values) (key : String) (fallback : Flt) :
    Except HttpError Flt :=
  parseOptional r.parseFloat q key fallback

/-- `parseQueryTime`: Unix seconds, or a time in RFC 3339. -/
def parseQueryTime (r : ParamReaders) (value : String) : Option ℤ :=
  match parseInt 64 value with
  | some unixSeconds => some (unixSeconds * 1000000000)
  | none => r.rfc3339 value

/-- The count of a time by which Go compares it: its seconds since the year 1, in 64 bits, and its
nanoseconds. -/
def internalTime (t : ℤ) : ℤ :=
  (t / 1000000000 + 62135596800).bmod (2 ^ 64) * 1000000000 + t % 1000000000

/-- `a.After(b)`. -/
def timeAfter (a b : ℤ) : Bool := internalTime b < internalTime a

/-- `defaultQueryWindow`, in nanoseconds. -/
def defaultQueryWindow : ℤ := 3600000000000

/-- **`parseTimeRange`**: without parameters, the hour before now. -/
def parseTimeRange (r : ParamReaders) (now : ℤ) (q : Values) : Except HttpError QueryWindow := do
  let finish ← parseOptional (parseQueryTime r) q "end_time" now
  let start ← parseOptional (parseQueryTime r) q "start_time" (now - defaultQueryWindow)
  if timeAfter start finish then .error ⟨400, "start_time must be before end_time"⟩
  else .ok ⟨start, finish⟩

/-- `parsePagination`. -/
def parsePagination (q : Values) : Except HttpError (ℤ × ℤ) := do
  let page ← parseOptionalInt32 q "page" 1
  let pageSize ← parseOptionalInt32 q "page_size" 100
  .ok (page, pageSize)

/-- `parseSortOrder`. -/
def parseSortOrder (r : ParamReaders) (q : Values) : Except HttpError ℤ :=
  match lowerText r.toLower (defaultQueryParam q "order" "desc") with
  | "desc" => .ok 0
  | "asc" => .ok 1
  | _ => .error ⟨400, "invalid order"⟩

/-! ### Handlers -/

/-- The handlers of the queries. -/
inductive Endpoint where
  | latest
  | scoreRank
  | performance
  | trend
  | anomalies
  | netDetail
  | diskDetail
  | memDetail
  | softIrqDetail
  | mysqlDetail
  | redisDetail
  deriving DecidableEq, Repr

section Handlers

variable (r : ParamReaders) (now : ℤ) (q : Values) (server : String)

/-- What the handlers of the paged queries of a server read: `detail` and `Performance`. -/
def parseDetail : Except HttpError DetailOptions := do
  let window ← parseTimeRange r now q
  let (page, pageSize) ← parsePagination q
  .ok ⟨server, window, page, pageSize⟩

/-- The thresholds that `Anomalies` reads. -/
def parseThresholds : Except HttpError AnomalyThreshold := do
  let cpuThreshold ← parseOptionalFloat32 r q "cpu_threshold" (.finite 0)
  let memoryThreshold ← parseOptionalFloat32 r q "mem_threshold" (.finite 0)
  let diskThreshold ← parseOptionalFloat32 r q "disk_threshold" (.finite 0)
  let changeRateThreshold ← parseOptionalFloat32 r q "change_rate_threshold" (.finite 0)
  let mysqlConnectionThreshold ←
    parseOptionalFloat32 r q "mysql_connection_threshold" (.finite 0)
  let mysqlReplicationLagThreshold ←
    parseOptionalFloat32 r q "mysql_replication_lag_threshold" (.finite 0)
  let mysqlSlowQueryRateThreshold ←
    parseOptionalFloat32 r q "mysql_slow_query_rate_threshold" (.finite 0)
  let mysqlLockWaitRateThreshold ←
    parseOptionalFloat32 r q "mysql_lock_wait_rate_threshold" (.finite 0)
  let mysqlBufferPoolHitThreshold ←
    parseOptionalFloat32 r q "mysql_buffer_pool_hit_threshold" (.finite 0)
  let redisConnectionThreshold ←
    parseOptionalFloat32 r q "redis_connection_threshold" (.finite 0)
  let redisMemoryThreshold ← parseOptionalFloat32 r q "redis_memory_threshold" (.finite 0)
  let redisHitRateThreshold ← parseOptionalFloat32 r q "redis_hit_rate_threshold" (.finite 0)
  let redisReplicationLagThreshold ←
    parseOptionalFloat32 r q "redis_replication_lag_threshold" (.finite 0)
  let redisSlowlogGrowthThreshold ←
    parseOptionalFloat32 r q "redis_slowlog_growth_threshold" (.finite 0)
  .ok
    { cpuThreshold, memoryThreshold, diskThreshold, changeRateThreshold,
      mysqlConnectionThreshold, mysqlReplicationLagThreshold, mysqlSlowQueryRateThreshold,
      mysqlLockWaitRateThreshold, mysqlBufferPoolHitThreshold, redisConnectionThreshold,
      redisMemoryThreshold, redisHitRateThreshold, redisReplicationLagThreshold,
      redisSlowlogGrowthThreshold }

/-- **What a handler reads.** `Anomalies` reads its page and the size of it as `detail` does. -/
def readOperation : Endpoint → Except HttpError Operation
  | .latest => .ok .latest
  | .scoreRank => do
    let (page, pageSize) ← parsePagination q
    let order ← parseSortOrder r q
    .ok (.scoreRank order page pageSize)
  | .performance => (parseDetail r now q server).map .performance
  | .trend => do
    let window ← parseTimeRange r now q
    let intervalSeconds ← parseOptionalInt32 q "interval_seconds" 0
    .ok (.trend server window intervalSeconds)
  | .anomalies => do
    let options ← parseDetail r now q server
    let threshold ← parseThresholds r q
    .ok (.anomalies options threshold)
  | .netDetail => (parseDetail r now q server).map .netDetail
  | .diskDetail => (parseDetail r now q server).map .diskDetail
  | .memDetail => (parseDetail r now q server).map .memDetail
  | .softIrqDetail => (parseDetail r now q server).map .softIrqDetail
  | .mysqlDetail => (parseDetail r now q server).map .mysqlDetail
  | .redisDetail => (parseDetail r now q server).map .redisDetail

end Handlers

/-! ### Routes -/

/-- The routes below `/api/servers`. -/
def clusterRoutes : List (String × Endpoint) :=
  [("latest", .latest), ("score-rank", .scoreRank)]

/-- The routes below `/api/servers/:server`. -/
def serverRoutes : List (String × Endpoint) :=
  [("performance", .performance), ("trend", .trend), ("anomalies", .anomalies),
    ("net-detail", .netDetail), ("disk-detail", .diskDetail), ("mem-detail", .memDetail),
    ("softirq-detail", .softIrqDetail), ("mysql-detail", .mysqlDetail),
    ("redis-detail", .redisDetail)]

/-- The handler of a segment in a table of routes. -/
def findRoute (routes : List (String × Endpoint)) (segment : List UInt8) : Option Endpoint :=
  (routes.find? fun route => textBytes route.1 = segment).map (·.2)

/-- **The route of a path**, by its segments: its handler and the server that it names. -/
def route : List (List UInt8) → Option (Endpoint × List UInt8)
  | [root, api, servers, last] =>
    if root = [] ∧ api = textBytes "api" ∧ servers = textBytes "servers" then
      (findRoute clusterRoutes last).map fun endpoint => (endpoint, [])
    else none
  | [root, api, servers, server, last] =>
    if root = [] ∧ api = textBytes "api" ∧ servers = textBytes "servers" then
      (findRoute serverRoutes last).map fun endpoint => (endpoint, server)
    else none
  | _ => none

/-- **A request that the middleware has let pass**, with what its handler reads. A path with a
wrong escape is rejected by the server, and one without a route by the router. -/
def readRequest (r : ParamReaders) (now : ℤ) (claims : Claims) (target : List UInt8) :
    Option HttpQuery :=
  let (path, query) := cut 63 target
  match unescape false path with
  | none => some { claims := some claims, operation := .error ⟨400, "400 Bad Request"⟩ }
  | some path =>
    match route (path.splitOn 47) with
    | none => some { claims := some claims, operation := .error ⟨404, "404 page not found"⟩ }
    | some (endpoint, server) => do
      let server ← bytesText server
      let q ← parseQuery query
      some
        { claims := some claims
          tenantId := queryParam q "tenant_id"
          teamId := queryParam q "team_id"
          clusterId := queryParam q "cluster_id"
          operation := readOperation r now q server endpoint }

end MonitorSystem
