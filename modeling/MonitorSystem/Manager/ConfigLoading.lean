import MonitorSystem.Library.SignificantDigits
import MonitorSystem.Manager.QueryRecords

/-!
# Loading the configuration

`loadManagerConfigFromEnv` (`manager/src/ManagerConfig.cpp`): every setting is the number that a
variable holds, raised to a least value, or a fallback where the variable is not set or holds
no number. A fallback is taken as it is. Where it is a constant, the upper bound of a pool can
therefore come out below its lower bound, and where it is a share of the capacity of a queue,
the high watermark of a queue of one place is zero.

`wellFormed_iff` says for which environments this does not happen.
-/

namespace MonitorSystem

/-! ### Reading numbers -/

/-- The range of a `long`: `strtol` stops at its ends. -/
def saturateLong (n : ℤ) : ℤ := max (-(2 ^ 63)) (min n (2 ^ 63 - 1))

/-- `strtol` in base ten: the number a text begins with and what is left behind it; nothing
where no digit is read. -/
def strtol (text : List Char) : Option (ℤ × List Char) :=
  let unsigned (rest : List Char) (sign : ℤ) :=
    (leadingNat rest).map fun n => (saturateLong (sign * n), rest.dropWhile (·.isDigit))
  match text.dropWhile isspace with
  | '-' :: rest => unsigned rest (-1)
  | '+' :: rest => unsigned rest 1
  | rest => unsigned rest 1

/-- The environment: the values of the variables that are set. -/
abbrev Environment := String → Option String

/-- The number that a variable holds: all of its value is read. A value ends at a NUL. -/
def Environment.number (env : Environment) (name : String) : Option ℤ :=
  match (env name).bind fun value => strtol (value.toList.takeWhile (· ≠ '\x00')) with
  | some (parsed, []) => some (toInt32 parsed)
  | _ => none

/-- `envInt`. -/
def envInt (env : Environment) (name : String) (fallback minValue : ℤ) : ℤ :=
  match env.number name with
  | some parsed => max parsed minValue
  | none => fallback

/-- `envSize`. -/
def envSize (env : Environment) (name : String) (fallback minValue : ℕ) : ℕ :=
  (envInt env name (toInt32 fallback) (toInt32 minValue) % 2 ^ 64).toNat

/-- `envBool`. -/
def envBool (env : Environment) (name : String) (fallback : Bool) : Bool :=
  match env name with
  | some value => .ofList (value.toList.map Char.toLower) ∈ ["1", "true", "yes", "on"]
  | none => fallback

/-- `envString`. -/
def envString (env : Environment) (name fallback : String) : String := (env name).getD fallback

/-! ### The queues -/

/-- The capacity and the watermarks of a queue. -/
structure QueueLimits where
  capacity : ℕ
  highWatermark : ℕ
  lowWatermark : ℕ
  deriving DecidableEq, Repr

/-- The limits of a queue, from its three variables. A high watermark above the capacity is
replaced by `excess` of the capacity. -/
def queueLimits (env : Environment) (capacityName highName lowName : String) (fallback : ℕ)
    (excess : ℕ → ℕ) : QueueLimits :=
  let capacity := envSize env capacityName fallback 1
  let high := envSize env highName (capacity * 8 / 10) 1
  let low := envSize env lowName (capacity * 3 / 10) 0
  let high := if capacity < high then excess capacity else high
  { capacity
    highWatermark := high
    lowWatermark := if high < low then high / 2 else low }

/-- Rounding to `double`, of numbers that are neither tiny nor huge. -/
def binary64 (q : ℚ) : ℚ := Digits.round Digits.halfEven 2 53 q

/-- `capacity * 0.8`, a product of `double`s, as a `size_t` again. -/
def eightTenths (capacity : ℕ) : ℕ := ⌊binary64 (capacity * binary64 0.8)⌋.toNat

/-- The limits of the task queue. -/
def taskQueueLimits (env : Environment) : QueueLimits :=
  queueLimits env "MANAGER_TASK_QUEUE_CAPACITY" "MANAGER_TASK_QUEUE_HIGH_WATERMARK"
    "MANAGER_TASK_QUEUE_LOW_WATERMARK" 10000 eightTenths

/-- The limits of the query queue. -/
def queryQueueLimits (env : Environment) : QueueLimits :=
  queueLimits env "MANAGER_QUERY_QUEUE_CAPACITY" "MANAGER_QUERY_QUEUE_HIGH_WATERMARK"
    "MANAGER_QUERY_QUEUE_LOW_WATERMARK" 10000 fun capacity => capacity

/-! ### The configuration -/

/-- **`loadManagerConfigFromEnv`.** -/
def loadManagerConfigFromEnv (env : Environment) (hardwareConcurrency : UInt32) :
    ManagerConfig :=
  let cpu := max 1 (toInt32 hardwareConcurrency.toNat)
  let grpcMinPollers := envInt env "MANAGER_GRPC_MIN_POLLERS" 8 1
  let queryThreadsMin := envInt env "MANAGER_QUERY_THREADS_MIN" (max 4 cpu) 1
  let businessThreadsMin := envInt env "MANAGER_BUSINESS_THREADS_MIN" (max 4 cpu) 1
  let mysqlWritePoolMin := envInt env "MANAGER_MYSQL_WRITE_POOL_MIN" 2 0
  let mysqlQueryPoolMin := envInt env "MANAGER_MYSQL_QUERY_POOL_MIN" 4 0
  let redisPoolMin := envInt env "MANAGER_REDIS_POOL_MIN" 2 0
  { grpcNumCqs := envInt env "MANAGER_GRPC_NUM_CQS" 4 1
    grpcMinPollers
    grpcMaxPollers := envInt env "MANAGER_GRPC_MAX_POLLERS" 64 grpcMinPollers
    taskQueueCapacity := (taskQueueLimits env).capacity
    taskQueueHighWatermark := (taskQueueLimits env).highWatermark
    taskQueueLowWatermark := (taskQueueLimits env).lowWatermark
    taskTimeout := envInt env "MANAGER_TASK_TIMEOUT_MS" 3000 1
    ingestShardCount := envSize env "MANAGER_INGEST_SHARD_COUNT" 8 1
    ingestQueueCapacityPerShard := envSize env "MANAGER_INGEST_QUEUE_CAPACITY_PER_SHARD" 2048 1
    queryQueueCapacity := (queryQueueLimits env).capacity
    queryQueueHighWatermark := (queryQueueLimits env).highWatermark
    queryQueueLowWatermark := (queryQueueLimits env).lowWatermark
    queryThreadsMin
    queryThreadsMax := envInt env "MANAGER_QUERY_THREADS_MAX"
      (max queryThreadsMin (toInt32 (cpu * 2))) queryThreadsMin
    queryIdleShrink := envInt env "MANAGER_QUERY_IDLE_SHRINK_SECONDS" 30 1
    businessThreadsMin
    businessThreadsMax := envInt env "MANAGER_BUSINESS_THREADS_MAX"
      (max businessThreadsMin (toInt32 (cpu * 2))) businessThreadsMin
    businessIdleShrink := envInt env "MANAGER_BUSINESS_IDLE_SHRINK_SECONDS" 30 1
    mysqlWritePoolMin
    mysqlWritePoolMax := envInt env "MANAGER_MYSQL_WRITE_POOL_MAX" 4 mysqlWritePoolMin
    mysqlQueryPoolMin
    mysqlQueryPoolMax := envInt env "MANAGER_MYSQL_QUERY_POOL_MAX" 8 mysqlQueryPoolMin
    mysqlConnectTimeout := envInt env "MANAGER_MYSQL_CONNECT_TIMEOUT_MS" 1000 1
    mysqlReadTimeout := envInt env "MANAGER_MYSQL_READ_TIMEOUT_MS" 2000 1
    mysqlHealthCheck := envInt env "MANAGER_MYSQL_HEALTH_CHECK_SECONDS" 10 1
    mysqlIdleTtl := envInt env "MANAGER_MYSQL_IDLE_TTL_SECONDS" 60 1
    redisEnabled := envBool env "MANAGER_REDIS_ENABLED" true
    redisUri := envString env "MANAGER_REDIS_URI" "tcp://127.0.0.1:6379"
    redisPoolMin
    redisPoolMax := envInt env "MANAGER_REDIS_POOL_MAX" 8 redisPoolMin
    redisConnectTimeout := envInt env "MANAGER_REDIS_CONNECT_TIMEOUT_MS" 500 1
    redisReadTimeout := envInt env "MANAGER_REDIS_READ_TIMEOUT_MS" 1000 1
    redisHealthCheck := envInt env "MANAGER_REDIS_HEALTH_CHECK_SECONDS" 10 1
    redisIdleTtl := envInt env "MANAGER_REDIS_IDLE_TTL_SECONDS" 60 1
    redisCacheTtl := envInt env "MANAGER_REDIS_CACHE_TTL_SECONDS" 5 1
    verboseLog := envBool env "MANAGER_VERBOSE_LOG" false
    metricsLogInterval := envInt env "MANAGER_METRICS_LOG_INTERVAL_SECONDS" 10 1 }

/-- Watermarks in order, in a queue of at least one place. -/
structure QueueLimits.Ordered (q : QueueLimits) : Prop where
  low_le_high : q.lowWatermark ≤ q.highWatermark
  high_le_capacity : q.highWatermark ≤ q.capacity
  high_pos : 1 ≤ q.highWatermark
  capacity_pos : 1 ≤ q.capacity

/-- What the components of the manager expect of their configuration. -/
structure ManagerConfig.WellFormed (cfg : ManagerConfig) : Prop where
  grpcPollers : 1 ≤ cfg.grpcMinPollers ∧ cfg.grpcMinPollers ≤ cfg.grpcMaxPollers
  queryThreads : 1 ≤ cfg.queryThreadsMin ∧ cfg.queryThreadsMin ≤ cfg.queryThreadsMax
  businessThreads : 1 ≤ cfg.businessThreadsMin ∧ cfg.businessThreadsMin ≤ cfg.businessThreadsMax
  mysqlWritePool : 0 ≤ cfg.mysqlWritePoolMin ∧ cfg.mysqlWritePoolMin ≤ cfg.mysqlWritePoolMax
  mysqlQueryPool : 0 ≤ cfg.mysqlQueryPoolMin ∧ cfg.mysqlQueryPoolMin ≤ cfg.mysqlQueryPoolMax
  redisPool : 0 ≤ cfg.redisPoolMin ∧ cfg.redisPoolMin ≤ cfg.redisPoolMax
  taskQueue : QueueLimits.Ordered
    ⟨cfg.taskQueueCapacity, cfg.taskQueueHighWatermark, cfg.taskQueueLowWatermark⟩
  queryQueue : QueueLimits.Ordered
    ⟨cfg.queryQueueCapacity, cfg.queryQueueHighWatermark, cfg.queryQueueLowWatermark⟩

/-! ### What is read -/

section Reading

variable {env : Environment} {name : String}

theorem number_range {n : ℤ} (h : env.number name = some n) : -(2 ^ 31) ≤ n ∧ n < 2 ^ 31 := by
  unfold Environment.number at h
  split at h
  · obtain rfl := Option.some.inj h
    exact toInt32_range _
  · cases h

theorem envInt_some {n fallback minValue : ℤ} (h : env.number name = some n) :
    envInt env name fallback minValue = max n minValue := by
  rw [envInt, h]

theorem envInt_none {fallback minValue : ℤ} (h : env.number name = none) :
    envInt env name fallback minValue = fallback := by
  rw [envInt, h]

/-- A setting is at least what it is raised to, if the fallback is. -/
theorem le_envInt_iff {fallback minValue : ℤ} :
    minValue ≤ envInt env name fallback minValue ↔
      (env.number name = none → minValue ≤ fallback) := by
  cases h : env.number name with
  | none => simp [envInt_none h]
  | some n => simp [envInt_some h]

theorem le_envInt {fallback minValue : ℤ} (h : minValue ≤ fallback) :
    minValue ≤ envInt env name fallback minValue := le_envInt_iff.mpr fun _ => h

/-- **When a setting that is raised to another one is not below it.** -/
theorem envInt_le_envInt_iff {maxName : String} {fallback least maxFallback : ℤ}
    (hfallback : fallback ≤ maxFallback) (hleast : least ≤ maxFallback) :
    envInt env name fallback least ≤
        envInt env maxName maxFallback (envInt env name fallback least) ↔
      ∀ n, env.number name = some n → env.number maxName = none → n ≤ maxFallback := by
  rw [le_envInt_iff]
  cases h : env.number name with
  | none => simp [envInt_none h, hfallback]
  | some n =>
    rw [envInt_some h]
    constructor
    · rintro hle n' hn' hnone
      obtain rfl := Option.some.inj hn'
      exact (le_max_left n least).trans (hle hnone)
    · exact fun hle hnone => max_le (hle n rfl hnone) hleast

/-- A size is the number that is set, raised to the least value. -/
theorem envSize_some {n : ℤ} {fallback minValue : ℕ} (h : env.number name = some n)
    (hmin : minValue < 2 ^ 31) : envSize env name fallback minValue = max n.toNat minValue := by
  obtain ⟨-, hlt⟩ := number_range h
  rw [envSize, envInt_some h, toInt32_eq ⟨by omega, by exact_mod_cast hmin⟩]
  omega

theorem envSize_none {fallback minValue : ℕ} (h : env.number name = none)
    (hfallback : fallback < 2 ^ 31) : envSize env name fallback minValue = fallback := by
  rw [envSize, envInt_none h, toInt32_eq ⟨by omega, by exact_mod_cast hfallback⟩]
  omega

theorem envSize_lt {fallback minValue : ℕ} (hfallback : fallback < 2 ^ 31)
    (hmin : minValue < 2 ^ 31) : envSize env name fallback minValue < 2 ^ 31 := by
  cases h : env.number name with
  | none => rwa [envSize_none h hfallback]
  | some n =>
    have := (number_range h).2
    rw [envSize_some h hmin]
    omega

end Reading

/-! ### Watermarks -/

/-- Doubles are off by a small share. -/
theorem binary64_mem {q : ℚ} (hq : 0 ≤ q) :
    (1 - 1 / 2 ^ 53) * q ≤ binary64 q ∧ binary64 q ≤ (1 + 1 / 2 ^ 53) * q := by
  have h := Digits.round_mem (b := 2) Digits.isNearest_halfEven (by decide) 53 hq
  norm_num at h ⊢
  exact h

theorem binary64_nonneg {q : ℚ} (hq : 0 ≤ q) : 0 ≤ binary64 q :=
  (mul_nonneg (by norm_num) hq).trans (binary64_mem hq).1

/-- Whole numbers of up to 53 bits are doubles. -/
theorem holds_intCast {n : ℤ} (h : |n| < 2 ^ 53) : Digits.Holds 2 53 (n : ℚ) :=
  ⟨n, 0, by exact_mod_cast h, by simp⟩

theorem binary64_intCast {n : ℤ} (h : |n| < 2 ^ 53) : binary64 n = n :=
  (holds_intCast h).round_eq Digits.isNearest_halfEven (by decide)
    (by rw [sub_self, abs_zero, zero_mul]) (by norm_num)

theorem binary64_natCast {n : ℕ} (h : n < 2 ^ 53) : binary64 n = n := by
  have habs : |(n : ℤ)| < 2 ^ 53 := by
    rw [abs_of_nonneg (Int.natCast_nonneg n)]
    exact_mod_cast h
  exact_mod_cast binary64_intCast habs

/-- The product lies between three quarters and nine tenths of the capacity. -/
theorem binary64_product_mem (capacity : ℕ) :
    3 / 4 * (capacity : ℚ) ≤ binary64 (capacity * binary64 0.8) ∧
      binary64 (capacity * binary64 0.8) ≤ 9 / 10 * capacity := by
  have hcapacity : (0 : ℚ) ≤ capacity := Nat.cast_nonneg capacity
  have height : (0 : ℚ) ≤ 0.8 := by norm_num
  have hshare := binary64_mem height
  have hproduct := binary64_mem (mul_nonneg hcapacity (binary64_nonneg height))
  norm_num at hshare hproduct
  constructor <;> nlinarith

theorem eightTenths_le (capacity : ℕ) : eightTenths capacity ≤ capacity := by
  have hle := (binary64_product_mem capacity).2
  have hfloor := Int.floor_le (binary64 (capacity * binary64 0.8))
  have hcapacity : (0 : ℚ) ≤ capacity := Nat.cast_nonneg capacity
  have hint : ⌊binary64 (capacity * binary64 0.8)⌋ ≤ (capacity : ℤ) := by
    have : (⌊binary64 (capacity * binary64 0.8)⌋ : ℚ) ≤ capacity := by linarith
    exact_mod_cast this
  unfold eightTenths
  omega

theorem eightTenths_pos {capacity : ℕ} (h : 2 ≤ capacity) : 1 ≤ eightTenths capacity := by
  have hge := (binary64_product_mem capacity).1
  have hcapacity : (2 : ℚ) ≤ capacity := by exact_mod_cast h
  have hint : 1 ≤ ⌊binary64 (capacity * binary64 0.8)⌋ := Int.le_floor.mpr (by push_cast; linarith)
  unfold eightTenths
  omega

theorem eightTenths_one : eightTenths 1 = 0 := by
  have hle := (binary64_product_mem 1).2
  have hint : ⌊binary64 ((1 : ℕ) * binary64 0.8)⌋ < 1 :=
    Int.floor_lt.mpr (lt_of_le_of_lt hle (by norm_num))
  unfold eightTenths
  omega

section Limits

variable {env : Environment} {capacityName highName lowName : String} {fallback : ℕ}
  {excess : ℕ → ℕ}

/-- The low watermark of a queue never is above the high one. -/
theorem queueLimits_low_le :
    (queueLimits env capacityName highName lowName fallback excess).lowWatermark ≤
      (queueLimits env capacityName highName lowName fallback excess).highWatermark := by
  unfold queueLimits
  dsimp only
  split_ifs <;> omega

/-- The high watermark of a queue never is above its capacity. -/
theorem queueLimits_high_le (hexcess : ∀ capacity, excess capacity ≤ capacity) :
    (queueLimits env capacityName highName lowName fallback excess).highWatermark ≤
      (queueLimits env capacityName highName lowName fallback excess).capacity := by
  have := hexcess (envSize env capacityName fallback 1)
  unfold queueLimits
  dsimp only
  split_ifs <;> omega

theorem queueLimits_capacity_pos (hfallback : 1 ≤ fallback) (hlt : fallback < 2 ^ 31) :
    1 ≤ (queueLimits env capacityName highName lowName fallback excess).capacity := by
  change 1 ≤ envSize env capacityName fallback 1
  cases h : env.number capacityName with
  | none => rwa [envSize_none h hlt]
  | some n =>
    rw [envSize_some h (by decide)]
    exact le_max_right _ _

/-- **When the high watermark of a queue is positive.** With a capacity of at least two it
always is; a queue of one place needs a watermark that is set and, where an excessive one is
replaced by less than one, not excessive. -/
theorem queueLimits_high_pos_iff (hfallback : 2 ≤ fallback) (hlt : fallback < 2 ^ 31)
    (hexcess : ∀ capacity, 2 ≤ capacity → 1 ≤ excess capacity) :
    1 ≤ (queueLimits env capacityName highName lowName fallback excess).highWatermark ↔
      ∀ n, env.number capacityName = some n → n ≤ 1 →
        ∃ high, env.number highName = some high ∧ (high ≤ 1 ∨ 1 ≤ excess 1) := by
  have hcapacity : envSize env capacityName fallback 1 < 2 ^ 31 := envSize_lt hlt (by decide)
  change 1 ≤ (if envSize env capacityName fallback 1 < envSize env highName
      (envSize env capacityName fallback 1 * 8 / 10) 1 then _ else _) ↔ _
  by_cases hone : ∃ n, env.number capacityName = some n ∧ n ≤ 1
  · -- a queue of one place
    obtain ⟨n, hn, hle⟩ := hone
    have hcap : envSize env capacityName fallback 1 = 1 := by
      rw [envSize_some hn (by decide)]
      omega
    rw [hcap]
    simp only [hn, Option.some.injEq, forall_eq', hle, true_implies]
    cases hhigh : env.number highName with
    | none => simp [envSize_none hhigh]
    | some high =>
      rw [envSize_some hhigh (by decide)]
      simp only [Option.some.injEq, exists_eq_left']
      split_ifs <;> omega
  · -- a queue of more places
    push Not at hone
    have hcap : 2 ≤ envSize env capacityName fallback 1 := by
      cases hn : env.number capacityName with
      | none => rwa [envSize_none hn hlt]
      | some n =>
        have := hone n hn
        rw [envSize_some hn (by decide)]
        omega
    have hexc := hexcess _ hcap
    refine iff_of_true ?_ fun n hn hle => absurd (hone n hn) (by omega)
    split_ifs with hexceeds
    · exact hexc
    · cases hhigh : env.number highName with
      | none =>
        rw [envSize_none hhigh (by omega)]
        omega
      | some high =>
        rw [envSize_some hhigh (by decide)]
        exact le_max_right _ _

/-- **When the limits of a queue are in order.** -/
theorem queueLimits_ordered_iff (hfallback : 2 ≤ fallback) (hlt : fallback < 2 ^ 31)
    (hle : ∀ capacity, excess capacity ≤ capacity)
    (hexcess : ∀ capacity, 2 ≤ capacity → 1 ≤ excess capacity) :
    (queueLimits env capacityName highName lowName fallback excess).Ordered ↔
      ∀ n, env.number capacityName = some n → n ≤ 1 →
        ∃ high, env.number highName = some high ∧ (high ≤ 1 ∨ 1 ≤ excess 1) := by
  rw [← queueLimits_high_pos_iff hfallback hlt hexcess]
  exact ⟨fun h => h.high_pos, fun h => ⟨queueLimits_low_le, queueLimits_high_le hle, h,
    queueLimits_capacity_pos (one_le_two.trans hfallback) hlt⟩⟩

end Limits

/-! ### Which environments are consistent -/

/-- A lower bound is set and its upper bound is not; then it does not exceed the upper bound's
fallback. -/
def Environment.Below (env : Environment) (minName maxName : String) (maxFallback : ℤ) : Prop :=
  ∀ n, env.number minName = some n → env.number maxName = none → n ≤ maxFallback

/-- A queue of one place has a high watermark that is set, to a number with `p`. -/
def Environment.Watermarked (env : Environment) (capacityName highName : String)
    (p : ℤ → Prop) : Prop :=
  ∀ n, env.number capacityName = some n → n ≤ 1 → ∃ high, env.number highName = some high ∧ p high

/-- The settings of an environment fit together. -/
structure Environment.Consistent (env : Environment) : Prop where
  grpcPollers : env.Below "MANAGER_GRPC_MIN_POLLERS" "MANAGER_GRPC_MAX_POLLERS" 64
  mysqlWritePool : env.Below "MANAGER_MYSQL_WRITE_POOL_MIN" "MANAGER_MYSQL_WRITE_POOL_MAX" 4
  mysqlQueryPool : env.Below "MANAGER_MYSQL_QUERY_POOL_MIN" "MANAGER_MYSQL_QUERY_POOL_MAX" 8
  redisPool : env.Below "MANAGER_REDIS_POOL_MIN" "MANAGER_REDIS_POOL_MAX" 8
  taskQueue : env.Watermarked "MANAGER_TASK_QUEUE_CAPACITY" "MANAGER_TASK_QUEUE_HIGH_WATERMARK"
    (· ≤ 1)
  queryQueue : env.Watermarked "MANAGER_QUERY_QUEUE_CAPACITY"
    "MANAGER_QUERY_QUEUE_HIGH_WATERMARK" fun _ => True

theorem taskQueueLimits_ordered_iff (env : Environment) :
    (taskQueueLimits env).Ordered ↔
      env.Watermarked "MANAGER_TASK_QUEUE_CAPACITY" "MANAGER_TASK_QUEUE_HIGH_WATERMARK"
        (· ≤ 1) := by
  have hiff : ∀ high : ℤ, high ≤ 1 ∨ 1 ≤ eightTenths 1 ↔ high ≤ 1 := by simp [eightTenths_one]
  rw [taskQueueLimits, queueLimits_ordered_iff (by decide) (by decide) eightTenths_le
    fun _ => eightTenths_pos]
  simp only [hiff]
  rfl

theorem queryQueueLimits_ordered_iff (env : Environment) :
    (queryQueueLimits env).Ordered ↔
      env.Watermarked "MANAGER_QUERY_QUEUE_CAPACITY" "MANAGER_QUERY_QUEUE_HIGH_WATERMARK"
        fun _ => True := by
  have hiff : ∀ high : ℤ, high ≤ 1 ∨ 1 ≤ 1 ↔ True := by simp
  rw [queryQueueLimits, queueLimits_ordered_iff (by decide) (by decide) (fun _ => le_rfl)
    fun _ h => one_le_two.trans h]
  simp only [hiff]
  rfl

/-- A lower bound whose fallback follows the number of cores. -/
theorem threads_le {env : Environment} {minName maxName : String} {cpu twice : ℤ} :
    1 ≤ envInt env minName (max 4 cpu) 1 ∧ envInt env minName (max 4 cpu) 1 ≤
      envInt env maxName (max (envInt env minName (max 4 cpu) 1) twice)
        (envInt env minName (max 4 cpu) 1) :=
  ⟨le_envInt (le_max_of_le_left (by decide)), le_envInt (le_max_left _ _)⟩

/-- **Which configurations are well formed**, for every environment and every number of cores. -/
theorem wellFormed_iff (env : Environment) (hardwareConcurrency : UInt32) :
    (loadManagerConfigFromEnv env hardwareConcurrency).WellFormed ↔ env.Consistent := by
  constructor
  · intro h
    exact
      { grpcPollers := (envInt_le_envInt_iff (by decide) (by decide)).mp h.grpcPollers.2
        mysqlWritePool := (envInt_le_envInt_iff (by decide) (by decide)).mp h.mysqlWritePool.2
        mysqlQueryPool := (envInt_le_envInt_iff (by decide) (by decide)).mp h.mysqlQueryPool.2
        redisPool := (envInt_le_envInt_iff (by decide) (by decide)).mp h.redisPool.2
        taskQueue := (taskQueueLimits_ordered_iff env).mp h.taskQueue
        queryQueue := (queryQueueLimits_ordered_iff env).mp h.queryQueue }
  · intro h
    exact
      { grpcPollers := ⟨le_envInt (by decide),
          (envInt_le_envInt_iff (by decide) (by decide)).mpr h.grpcPollers⟩
        queryThreads := threads_le
        businessThreads := threads_le
        mysqlWritePool := ⟨le_envInt (by decide),
          (envInt_le_envInt_iff (by decide) (by decide)).mpr h.mysqlWritePool⟩
        mysqlQueryPool := ⟨le_envInt (by decide),
          (envInt_le_envInt_iff (by decide) (by decide)).mpr h.mysqlQueryPool⟩
        redisPool := ⟨le_envInt (by decide),
          (envInt_le_envInt_iff (by decide) (by decide)).mpr h.redisPool⟩
        taskQueue := (taskQueueLimits_ordered_iff env).mpr h.taskQueue
        queryQueue := (queryQueueLimits_ordered_iff env).mpr h.queryQueue }

/-- **A hundred pollers at least, and 64 at most**: the lower bound is set alone. -/
theorem hundred_pollers :
    (loadManagerConfigFromEnv
        (fun name => if name = "MANAGER_GRPC_MIN_POLLERS" then some "100" else none)
        8).grpcMinPollers = 100 ∧
      (loadManagerConfigFromEnv
        (fun name => if name = "MANAGER_GRPC_MIN_POLLERS" then some "100" else none)
        8).grpcMaxPollers = 64 ∧
      ¬ (loadManagerConfigFromEnv
        (fun name => if name = "MANAGER_GRPC_MIN_POLLERS" then some "100" else none)
        8).WellFormed := by
  refine ⟨by decide, by decide, fun h => ?_⟩
  exact absurd h.grpcPollers.2 (by decide)

end MonitorSystem
