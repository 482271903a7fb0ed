import MonitorSystem.Manager.QueryStatements
import MonitorSystem.Text
import MonitorSystem.UrlText
import Mathlib.Data.List.DropRight

/-!
# The monitoring tools of the agent

The tools of `agent_service/internal/ai/tools/query_monitor_gateway.go`, which the language model
calls with a server name, texts for the times and numbers. Each of them asks the gateway with one
request, and the anomalies of no server in particular are asked for server by server
(`MonitorSystem.AnomalyFanOut` has the goroutines of that call). A tool that is called without an
input does what it does for the input whose fields are all empty.

Here is what the tools send: the path and the query of each request, and the URL that is built of
them. What a floating-point number is printed as and the lower case of a character are
parameters.
-/

namespace MonitorSystem

/-- What the libraries make of the arguments of the tools: the lower case of a character,
`strconv.Quote`, and `%g`, which never prints nothing. -/
structure ToolTexts where
  toLower : Char → Char
  quote : String → String
  formatG : Flt → String
  formatG_ne : ∀ x, formatG x ≠ ""

/-! ### Inputs -/

/-- `MonitorAnomaliesInput`. -/
structure MonitorAnomaliesInput where
  serverName : String := ""
  startTime : String := ""
  endTime : String := ""
  page : ℤ := 0
  pageSize : ℤ := 0
  cpuThreshold : Flt := .finite 0
  memThreshold : Flt := .finite 0
  diskThreshold : Flt := .finite 0
  changeRateThreshold : Flt := .finite 0
  redisConnectionThreshold : Flt := .finite 0
  redisMemoryThreshold : Flt := .finite 0
  redisHitRateThreshold : Flt := .finite 0
  redisReplicationLagThreshold : Flt := .finite 0
  redisSlowlogGrowthThreshold : Flt := .finite 0
  deriving DecidableEq, Repr

/-- `MonitorSeriesInput`. -/
structure MonitorSeriesInput where
  serverName : String := ""
  startTime : String := ""
  endTime : String := ""
  page : ℤ := 0
  pageSize : ℤ := 0
  intervalSeconds : ℤ := 0
  deriving DecidableEq, Repr

/-- The fields of the three inputs of the tools for details. -/
structure PagedInput where
  serverName : String := ""
  startTime : String := ""
  endTime : String := ""
  page : ℤ := 0
  pageSize : ℤ := 0
  deriving DecidableEq, Repr

/-- `MonitorDetailInput`. -/
structure MonitorDetailInput extends PagedInput where
  kind : String := ""
  deriving DecidableEq, Repr

/-- `MonitorMysqlDetailInput`. -/
abbrev MonitorMysqlDetailInput := PagedInput

/-- `MonitorRedisDetailInput`. -/
abbrev MonitorRedisDetailInput := PagedInput

/-! ### Queries -/

section Queries

variable (t : ToolTexts)

/-- `addTimeRange`. -/
def addTimeRange (values : UrlValues) (start finish : String) : UrlValues :=
  let values := if trimSpace start ≠ "" then values.set "start_time" (trimSpace start) else values
  if trimSpace finish ≠ "" then values.set "end_time" (trimSpace finish) else values

/-- `addInt`. -/
def addInt (values : UrlValues) (key : String) (value fallback : ℤ) : UrlValues :=
  if 0 < value then values.set key (toString value)
  else if 0 < fallback then values.set key (toString fallback)
  else values

/-- `addFloat`. -/
def addFloat (values : UrlValues) (key : String) (value : Flt) : UrlValues :=
  if value.isPos then values.set key (t.formatG value) else values

/-- **`anomalyQuery`.** -/
def anomalyQuery (input : MonitorAnomaliesInput) : UrlValues :=
  let values := addTimeRange .empty input.startTime input.endTime
  let values := addInt values "page" input.page 1
  let values := addInt values "page_size" input.pageSize 50
  let values := addFloat t values "cpu_threshold" input.cpuThreshold
  let values := addFloat t values "mem_threshold" input.memThreshold
  let values := addFloat t values "disk_threshold" input.diskThreshold
  let values := addFloat t values "change_rate_threshold" input.changeRateThreshold
  let values := addFloat t values "redis_connection_threshold" input.redisConnectionThreshold
  let values := addFloat t values "redis_memory_threshold" input.redisMemoryThreshold
  let values := addFloat t values "redis_hit_rate_threshold" input.redisHitRateThreshold
  let values :=
    addFloat t values "redis_replication_lag_threshold" input.redisReplicationLagThreshold
  addFloat t values "redis_slowlog_growth_threshold" input.redisSlowlogGrowthThreshold

/-- `seriesQuery`. -/
def seriesQuery (input : MonitorSeriesInput) (pagination interval : Bool) : UrlValues :=
  let values := addTimeRange .empty input.startTime input.endTime
  let values :=
    if pagination then addInt (addInt values "page" input.page 1) "page_size" input.pageSize 100
    else values
  if interval then addInt values "interval_seconds" input.intervalSeconds 0 else values

/-- The query of a tool for details. -/
def pagedQuery (input : PagedInput) : UrlValues :=
  let values := addTimeRange .empty input.startTime input.endTime
  let values := addInt values "page" input.page 1
  addInt values "page_size" input.pageSize 100

/-- `detailQuery`. -/
def detailQuery (input : MonitorDetailInput) : UrlValues := pagedQuery input.toPagedInput

/-- `mysqlDetailQuery`. -/
def mysqlDetailQuery (input : MonitorMysqlDetailInput) : UrlValues := pagedQuery input

/-- `redisDetailQuery`. -/
def redisDetailQuery (input : MonitorRedisDetailInput) : UrlValues := pagedQuery input

/-- `detailEndpoint`. -/
def detailEndpoint (kind : String) : Except String String :=
  match lowerText t.toLower (trimSpace kind) with
  | "net" | "network" => .ok "net-detail"
  | "disk" => .ok "disk-detail"
  | "mem" | "memory" => .ok "mem-detail"
  | "softirq" | "soft_irq" => .ok "softirq-detail"
  | "mysql" | "mysql_detail" | "db" => .ok "mysql-detail"
  | "redis" | "redis_detail" | "cache" => .ok "redis-detail"
  | _ =>
    .error ("unsupported detail kind " ++ t.quote kind ++
      ", expected net, disk, mem, softirq, mysql, or redis")

end Queries

/-! ### Requests -/

/-- What a tool asks the gateway for. -/
structure ToolRequest where
  path : List UInt8
  query : UrlValues

/-- `"/api/servers/latest"`, without a query. -/
def overviewRequest : ToolRequest := ⟨textBytes "/api/servers/latest", .empty⟩

/-- A path of the gateway for a server. -/
def serverPath (server endpoint : String) : List UInt8 :=
  textBytes "/api/servers/" ++ pathEscape server ++ textBytes ("/" ++ endpoint)

/-- A call of a tool. -/
inductive ToolCall where
  | clusterOverview
  | anomalies (input : MonitorAnomaliesInput)
  | performance (input : MonitorSeriesInput)
  | trend (input : MonitorSeriesInput)
  | detail (input : MonitorDetailInput)
  | redisDetail (input : MonitorRedisDetailInput)
  | mysqlDetail (input : MonitorMysqlDetailInput)
  deriving DecidableEq, Repr

/-- A request about a server, whose name must not be blank. -/
def namedRequest (server : String) (request : Except String ToolRequest) :
    Except String (List ToolRequest) :=
  if trimSpace server = "" then .error "server_name is required"
  else request.map fun r => [r]

/-- **The requests of a call**, or the error that it ends with before it sends one. The names are
those of the servers in the overview, for which the anomalies of all servers are asked. -/
def ToolCall.requests (t : ToolTexts) (names : List String) :
    ToolCall → Except String (List ToolRequest)
  | .clusterOverview => .ok [overviewRequest]
  | .anomalies input =>
    let params := anomalyQuery t input
    if trimSpace input.serverName ≠ "" then
      .ok [⟨serverPath input.serverName "anomalies", params⟩]
    else
      .ok (overviewRequest :: names.map fun name => ⟨serverPath name "anomalies", params⟩)
  | .performance input =>
    namedRequest input.serverName
      (.ok ⟨serverPath input.serverName "performance", seriesQuery input true false⟩)
  | .trend input =>
    namedRequest input.serverName
      (.ok ⟨serverPath input.serverName "trend", seriesQuery input false true⟩)
  | .detail input =>
    namedRequest input.serverName
      ((detailEndpoint t input.kind).map fun endpoint =>
        ⟨serverPath input.serverName endpoint, detailQuery input⟩)
  | .redisDetail input =>
    namedRequest input.serverName
      (.ok ⟨serverPath input.serverName "redis-detail", redisDetailQuery input⟩)
  | .mysqlDetail input =>
    namedRequest input.serverName
      (.ok ⟨serverPath input.serverName "mysql-detail", mysqlDetailQuery input⟩)

/-! ### URLs -/

/-- `strings.TrimRight(s, "/")`. -/
def trimSlashes (s : String) : String := .ofList (s.toList.rdropWhile (· = '/'))

/-- **`buildAPIGatewayURL`.** -/
def buildAPIGatewayURL (baseURL : String) (r : ToolRequest) : List UInt8 :=
  let endpoint := textBytes (trimSlashes baseURL) ++ r.path
  if r.query.entries = [] then endpoint else endpoint ++ 63 :: r.query.encode

open Percent in
/-- What the HTTP client puts into the request line for a URL: without the fragment, the scheme
and the host, its path as it is encoded there, and its query. -/
def requestTarget (url : List UInt8) : List UInt8 :=
  let (hierarchy, query) := cut 63 (cut 35 url).1
  let path := ((cut 58 hierarchy).2.drop 2).dropWhile (· ≠ 47)
  if query = [] then path else path ++ 63 :: query

/-- An address of the gateway as it is configured: a scheme and a host, and slashes behind them
if one likes. -/
structure GatewayAddress where
  scheme : String
  host : String
  slashes : ℕ
  scheme_plain : ∀ c ∈ [':', '/', '?', '#'], c ∉ scheme.toList
  host_plain : ∀ c ∈ ['/', '?', '#'], c ∉ host.toList
  host_ne : host ≠ ""

/-- The base URL of an address. -/
def GatewayAddress.baseURL (a : GatewayAddress) : String :=
  a.scheme ++ "://" ++ a.host ++ .ofList (List.replicate a.slashes '/')

end MonitorSystem
