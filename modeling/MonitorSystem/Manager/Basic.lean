import Mathlib.Algebra.Group.Int.Defs
import Mathlib.Algebra.Group.Nat.Defs

/-!
# Configuration, metrics and call status of the manager

The records every component of the manager shares: its configuration
(`manager/include/ManagerConfig.h`), its counters
(`manager/include/ManagerMetrics.h`) and the gRPC status a call returns.

An `int` of the configuration is an `ℤ` and a `size_t` an `ℕ`; durations are in the
unit of the source's field. The counters are natural numbers.
-/

namespace MonitorSystem

/-- `static_cast<int>`, and what becomes of the result of an `int` operation. -/
def toInt32 (n : ℤ) : ℤ := n.bmod (2 ^ 32)

theorem toInt32_range (n : ℤ) : -(2 ^ 31) ≤ toInt32 n ∧ toInt32 n < 2 ^ 31 := by
  unfold toInt32
  have hle := Int.le_bmod (x := n) (m := 2 ^ 32) (by decide)
  have hlt := Int.bmod_lt (x := n) (m := 2 ^ 32) (by decide)
  omega

theorem toInt32_eq {n : ℤ} (h : -(2 ^ 31) ≤ n ∧ n < 2 ^ 31) : toInt32 n = n := by
  rw [toInt32, Int.bmod_eq_of_le] <;> omega

/-- The gRPC status codes the manager returns. -/
inductive StatusCode where
  | ok
  | invalidArgument
  | deadlineExceeded
  | notFound
  | resourceExhausted
  | internal
  | unavailable
  | unauthenticated
  deriving DecidableEq, Repr

/-- A gRPC status: its code and its message. -/
structure Status where
  code : StatusCode
  message : String := ""
  deriving DecidableEq, Repr

namespace Status

/-- `grpc::Status::OK`. -/
def OK : Status := ⟨.ok, ""⟩

/-- `status.ok()`. -/
def ok (s : Status) : Bool := s.code = .ok

end Status

/-- `ManagerConfig`, with the defaults of its declaration. -/
structure ManagerConfig where
  grpcNumCqs : ℤ := 4
  grpcMinPollers : ℤ := 8
  grpcMaxPollers : ℤ := 64
  taskQueueCapacity : ℕ := 10000
  taskQueueHighWatermark : ℕ := 8000
  taskQueueLowWatermark : ℕ := 3000
  /-- In milliseconds. -/
  taskTimeout : ℤ := 3000
  ingestShardCount : ℕ := 8
  ingestQueueCapacityPerShard : ℕ := 2048
  queryQueueCapacity : ℕ := 10000
  queryQueueHighWatermark : ℕ := 8000
  queryQueueLowWatermark : ℕ := 3000
  queryThreadsMin : ℤ := 4
  queryThreadsMax : ℤ := 16
  /-- In seconds. -/
  queryIdleShrink : ℤ := 30
  businessThreadsMin : ℤ := 4
  businessThreadsMax : ℤ := 16
  /-- In seconds. -/
  businessIdleShrink : ℤ := 30
  mysqlWritePoolMin : ℤ := 2
  mysqlWritePoolMax : ℤ := 4
  mysqlQueryPoolMin : ℤ := 4
  mysqlQueryPoolMax : ℤ := 8
  /-- In milliseconds. -/
  mysqlConnectTimeout : ℤ := 1000
  /-- In milliseconds. -/
  mysqlReadTimeout : ℤ := 2000
  /-- In seconds. -/
  mysqlHealthCheck : ℤ := 10
  /-- In seconds. -/
  mysqlIdleTtl : ℤ := 60
  redisEnabled : Bool := true
  redisUri : String := "tcp://127.0.0.1:6379"
  redisPoolMin : ℤ := 2
  redisPoolMax : ℤ := 8
  /-- In milliseconds. -/
  redisConnectTimeout : ℤ := 500
  /-- In milliseconds. -/
  redisReadTimeout : ℤ := 1000
  /-- In seconds. -/
  redisHealthCheck : ℤ := 10
  /-- In seconds. -/
  redisIdleTtl : ℤ := 60
  /-- In seconds. -/
  redisCacheTtl : ℤ := 5
  verboseLog : Bool := false
  /-- In seconds. -/
  metricsLogInterval : ℤ := 10
  deriving DecidableEq, Repr, Inhabited

/-- `ManagerMetrics`: the counters of the manager. -/
structure ManagerMetrics where
  workerRequests : ℕ := 0
  queryRequests : ℕ := 0
  queueRejected : ℕ := 0
  droppedMonitorSamples : ℕ := 0
  taskTimeouts : ℕ := 0
  taskErrors : ℕ := 0
  mysqlErrors : ℕ := 0
  redisErrors : ℕ := 0
  poolTimeouts : ℕ := 0
  poolReconnects : ℕ := 0
  deriving DecidableEq, Repr, Inhabited

end MonitorSystem
