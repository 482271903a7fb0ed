import MonitorSystem.Manager.QueryManager
import MonitorSystem.Text

/-!
# The query handlers of the gateway

The HTTP side of the queries: `QueryHandler` (`api_gateway/internal/handler/query.go`) and
the gRPC client behind it (`api_gateway/internal/grpcclient`). A handler parses the
parameters of its query, derives the scope from the access token (`scopedContext`), sends
the query with that scope to the manager and writes what comes back, or an error.

The parsed parameters are an arbitrary value of `Operation` here, or the error response
that the parsing has written: nothing below depends on how a parameter is read. A call may
also fail on its way, for which `QueryGateway.transport` stands.
-/

namespace MonitorSystem

open Oracle

/-! ### The scope of a request -/

/-- The claims of an access token that the queries use. -/
structure Claims where
  tenantId : String
  teamId : String
  deriving DecidableEq, Repr

/-- An error response. -/
structure HttpError where
  code : ℕ
  message : String
  deriving DecidableEq, Repr

/-- A time range of a handler, in nanoseconds. -/
structure QueryWindow where
  start : ℤ
  finish : ℤ
  deriving DecidableEq, Repr

/-- The parameters of the paged queries of one server. -/
structure DetailOptions where
  server : String
  window : QueryWindow
  page : ℤ
  pageSize : ℤ
  deriving DecidableEq, Repr

/-- The queries, with their parsed parameters. -/
inductive Operation where
  | latest
  | performance (o : DetailOptions)
  | trend (server : String) (window : QueryWindow) (intervalSeconds : ℤ)
  | anomalies (o : DetailOptions) (threshold : AnomalyThreshold)
  | scoreRank (order page pageSize : ℤ)
  | netDetail (o : DetailOptions)
  | diskDetail (o : DetailOptions)
  | memDetail (o : DetailOptions)
  | softIrqDetail (o : DetailOptions)
  | mysqlDetail (o : DetailOptions)
  | redisDetail (o : DetailOptions)
  deriving DecidableEq, Repr

/-- An HTTP query: the claims that the middleware has put into the context, the query
parameters that name a scope, and the operation or what the parsing of its parameters has
answered. -/
structure HttpQuery where
  claims : Option Claims
  tenantId : String := ""
  teamId : String := ""
  clusterId : String := ""
  operation : Except HttpError Operation

/-- **`scopedContext`**: the scope of a query, from the token; the query may only choose
the cluster. -/
def scopedContext (req : HttpQuery) : Except HttpError QueryScope :=
  match req.claims with
  | none => .error ⟨401, "未登录或登录已过期"⟩
  | some claims =>
    if trimSpace req.tenantId ≠ "" ∧ trimSpace req.tenantId ≠ claims.tenantId then
      .error ⟨403, "无权访问指定租户的监控数据"⟩
    else if trimSpace req.teamId ≠ "" ∧ trimSpace req.teamId ≠ claims.teamId then
      .error ⟨403, "无权访问指定团队的监控数据"⟩
    else .ok ⟨claims.tenantId, claims.teamId, trimSpace req.clusterId⟩

/-! ### The client -/

/-- `setQueryScope`: the scope of the message, which is left unset without a tenant or a
team. -/
def setQueryScope (scope : QueryScope) : QueryScope :=
  if scope.tenantId = "" ∨ scope.teamId = "" then {} else scope

/-- An integer field that is set only if it is positive. -/
def positiveOrUnset (n : ℤ) : ℤ := if n > 0 then n else 0

/-- `setFloat32`. -/
def setFloat32 (x : Flt) : Flt := if x.isPos then x else .finite 0

/-- The thresholds as the client sets them. -/
def AnomalyThreshold.message (t : AnomalyThreshold) : AnomalyThreshold where
  cpuThreshold := setFloat32 t.cpuThreshold
  memoryThreshold := setFloat32 t.memoryThreshold
  diskThreshold := setFloat32 t.diskThreshold
  changeRateThreshold := setFloat32 t.changeRateThreshold
  mysqlConnectionThreshold := setFloat32 t.mysqlConnectionThreshold
  mysqlReplicationLagThreshold := setFloat32 t.mysqlReplicationLagThreshold
  mysqlSlowQueryRateThreshold := setFloat32 t.mysqlSlowQueryRateThreshold
  mysqlLockWaitRateThreshold := setFloat32 t.mysqlLockWaitRateThreshold
  mysqlBufferPoolHitThreshold := setFloat32 t.mysqlBufferPoolHitThreshold
  redisConnectionThreshold := setFloat32 t.redisConnectionThreshold
  redisMemoryThreshold := setFloat32 t.redisMemoryThreshold
  redisHitRateThreshold := setFloat32 t.redisHitRateThreshold
  redisReplicationLagThreshold := setFloat32 t.redisReplicationLagThreshold
  redisSlowlogGrowthThreshold := setFloat32 t.redisSlowlogGrowthThreshold

/-- The whole seconds of a timestamp message. -/
def timestampSeconds (t : ℤ) : ℤ := t / 1000000000

/-- `detail` of the client: the message of a paged query. -/
def DetailOptions.message (o : DetailOptions) (scope : QueryScope) : DetailRequest where
  serverName := o.server
  startSeconds := timestampSeconds o.window.start
  endSeconds := timestampSeconds o.window.finish
  page := positiveOrUnset o.page
  pageSize := positiveOrUnset o.pageSize
  scope := setQueryScope scope

/-- **The call that the client makes for an operation.** -/
def Operation.rpc (scope : QueryScope) : Operation → Rpc
  | .latest => .latestScore (setQueryScope scope)
  | .performance o => .performance (o.message scope)
  | .trend server window intervalSeconds =>
    .trend
      { serverName := server
        startSeconds := timestampSeconds window.start
        endSeconds := timestampSeconds window.finish
        intervalSeconds := positiveOrUnset intervalSeconds
        scope := setQueryScope scope }
  | .anomalies o threshold =>
    .anomaly
      { serverName := o.server
        startSeconds := timestampSeconds o.window.start
        endSeconds := timestampSeconds o.window.finish
        threshold := threshold.message
        page := positiveOrUnset o.page
        pageSize := positiveOrUnset o.pageSize
        scope := setQueryScope scope }
  | .scoreRank order page pageSize =>
    .scoreRank
      { order
        page := positiveOrUnset page
        pageSize := positiveOrUnset pageSize
        scope := setQueryScope scope }
  | .netDetail o => .netDetail (o.message scope)
  | .diskDetail o => .diskDetail (o.message scope)
  | .memDetail o => .memDetail (o.message scope)
  | .softIrqDetail o => .softIrqDetail (o.message scope)
  | .mysqlDetail o => .mysqlDetail (o.message scope)
  | .redisDetail o => .redisDetail (o.message scope)

theorem Operation.scope_rpc (scope : QueryScope) (op : Operation) :
    (op.rpc scope).scope = setQueryScope scope := by
  cases op <;> rfl

/-! ### The handlers -/

/-- `grpcHTTPStatus`. -/
def grpcHTTPStatus : StatusCode → ℕ
  | .invalidArgument => 400
  | .notFound => 404
  | .deadlineExceeded => 504
  | .unavailable => 502
  | .resourceExhausted => 429
  | _ => 500

/-- The name of a code in the text of an error. -/
def StatusCode.name : StatusCode → String
  | .ok => "OK"
  | .invalidArgument => "InvalidArgument"
  | .deadlineExceeded => "DeadlineExceeded"
  | .notFound => "NotFound"
  | .resourceExhausted => "ResourceExhausted"
  | .internal => "Internal"
  | .unavailable => "Unavailable"
  | .unauthenticated => "Unauthenticated"

/-- The text of an error of the client. -/
def Status.error (s : Status) : String :=
  "rpc error: code = " ++ s.code.name ++ " desc = " ++ s.message

/-- `grpcErrorMessage`. -/
def grpcErrorMessage (managerAddr : String) (s : Status) : String :=
  if s.code ≠ .unavailable then s.error
  else
    "manager gRPC unavailable at " ++ managerAddr ++
      "; please start manager and verify MANAGER_GRPC_ADDR/DOCKER_MANAGER_GRPC_ADDR. detail: " ++
      s.error

/-- The gateway, and the manager it talks to. -/
structure QueryGateway where
  managerAddr : String
  service : QueryService
  /-- The status with which a call fails on its way, whatever the manager does. -/
  transport : Option Status

namespace QueryGateway

variable (g : QueryGateway)

/-- `invokeJSON`. -/
def invokeJSON (rpc : Rpc) : Handler := fun answer =>
  ((g.service.call rpc answer).1,
    match g.transport with
    | some status => .error status
    | none => (g.service.call rpc answer).2)

/-- **An HTTP query**: the statements that are executed for it, and what it has fetched or
the error that is written. -/
def handle (req : HttpQuery) : Session Prepared Reply HttpError Fetched := do
  let op ← Session.lift req.operation
  let scope ← Session.lift (scopedContext req)
  (g.invokeJSON (op.rpc scope)).mapError fun status =>
    ⟨grpcHTTPStatus status.code, grpcErrorMessage g.managerAddr status⟩

end QueryGateway

end MonitorSystem
