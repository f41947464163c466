import TinyLlb.Flow

/-! # Configuration and its validation

The fields that `validate` checks or that the modelled components read, with the
checks in the order of the source, so that the error reported is the first one.
Thresholds and temperatures are exact numbers. Loading and environment overrides
are not modelled.
-/

namespace TinyLlb

inductive BackpressureMode where
  | blocking
  | failFast
  | hybrid
  deriving DecidableEq

structure KvPolicyConfig where
  enabled : Bool
  rejectThreshold : ℚ
  delayThreshold : ℚ
  bypassInteractive : Bool

structure KvBias where
  enabled : Bool
  biasFullAt : ℚ
  pressureBelow : ℚ

structure KvPressureThreshold where
  at_ : ℚ
  maxFlows : Nat

structure KvPressure where
  enabled : Bool
  thresholds : List KvPressureThreshold

/-- The `scheduler` section. `max_active_flows` is a `u32`. -/
structure SchedulerConfig where
  maxActiveFlows : UInt32
  starvationTimeout : Duration
  kvBias : KvBias
  kvPressure : KvPressure

structure FlowsConfig where
  defaultWeight : F64
  defaultPriority : Nat

structure BackpressureConfig where
  mode : BackpressureMode
  maxQueueDepth : UInt32
  maxWait : Duration
  kvPolicy : KvPolicyConfig

structure TransientRetry where
  maxAttempts : Nat
  backoffStart : Duration
  backoffMax : Duration

/-- What `validate` asks of the parsed URL. -/
structure Url where
  cannotBeABase : Bool
  scheme : String

structure BackendConfig where
  url : Url
  metricsInterval : Duration
  transientRetry : TransientRetry

structure RetryPolicy where
  enabled : Bool
  maxRetries : Nat
  temperatureStep : ℚ
  maxTemperature : ℚ
  defaultTemperature : ℚ

structure PriorityPolicy where
  enabled : Bool
  idleGapThreshold : Duration
  agenticSuspectedThreshold : UInt32
  agenticConfirmedThreshold : UInt32

structure Config where
  backend : BackendConfig
  scheduler : SchedulerConfig
  flows : FlowsConfig
  backpressure : BackpressureConfig
  /-- The retired top-level key. -/
  kvPolicy : Option KvPolicyConfig
  retryPolicy : RetryPolicy
  priorityPolicy : PriorityPolicy

namespace Config

/-- `if failed { return Err(anyhow!(message)) }`. -/
def bail (failed : Bool) (message : String) : Except String Unit :=
  if failed then .error message else .ok ()

@[simp] theorem bail_eq_ok {failed : Bool} {message : String} :
    bail failed message = .ok () ↔ failed = false := by
  cases failed <;> simp [bail]

theorem andThen_eq_ok {first second : Except String Unit} :
    (do first; second) = .ok () ↔ first = .ok () ∧ second = .ok () := by
  cases first <;> simp [bind, Except.bind]

def validateBasics (cfg : Config) : Except String Unit := do
  bail cfg.kvPolicy.isSome
    "`kv_policy` has moved under `backpressure`; nest it as `backpressure.kv_policy` (the top-level `kv_policy:` key is no longer supported)"
  bail (cfg.scheduler.maxActiveFlows == 0) "max_active_flows must be > 0"
  bail (cfg.scheduler.starvationTimeout == 0) "starvation_timeout must be > 0s"
  bail (cfg.flows.defaultWeight.isLe 0) "default_weight must be > 0"
  bail (cfg.backpressure.mode != .blocking && cfg.backpressure.maxQueueDepth == 0)
    ("max_queue_depth must be > 0 when backpressure mode is "
      ++ (if cfg.backpressure.mode = .failFast then "fail_fast" else "hybrid") ++ " or hybrid")
  bail (cfg.backpressure.mode == .hybrid && cfg.backpressure.maxWait == 0)
    "max_wait must be > 0s when backpressure mode is hybrid"
  if cfg.backend.url.cannotBeABase then
    bail true "backend.url must be an absolute URL"
  else
    bail cfg.backend.url.scheme.isEmpty "backend.url must be an absolute URL with a scheme"
  bail (cfg.backend.metricsInterval == 0) "backend.metrics_interval must be > 0s"

def validateKvPolicy (kp : KvPolicyConfig) : Except String Unit :=
  if kp.enabled then do
    bail (kp.rejectThreshold ≤ 0 || kp.rejectThreshold > 1)
      "kv_policy.reject_threshold must be in (0, 1]"
    bail (kp.delayThreshold < 0 || kp.delayThreshold > 1)
      "kv_policy.delay_threshold must be in [0, 1]"
    bail (kp.delayThreshold ≥ kp.rejectThreshold)
      "kv_policy.delay_threshold must be less than reject_threshold"
  else .ok ()

/-- Some adjacent pair of thresholds fails to ascend. -/
def notAscending : List KvPressureThreshold → Bool
  | first :: second :: rest => second.at_ ≤ first.at_ || notAscending (second :: rest)
  | _ => false

def validateKvPressure (maxActiveFlows : UInt32) (kp : KvPressure) : Except String Unit :=
  if kp.enabled then do
    bail kp.thresholds.isEmpty
      "kv_pressure.thresholds must not be empty when kv_pressure is enabled"
    bail (kp.thresholds.any fun t => t.at_ < 0 || t.at_ > 1)
      "kv_pressure.thresholds[].at must be in [0, 1]"
    bail (notAscending kp.thresholds)
      "kv_pressure.thresholds must be strictly ascending by 'at'"
    bail (kp.thresholds.any fun t => t.maxFlows < 1 || t.maxFlows > maxActiveFlows.toNat)
      "kv_pressure.thresholds[].max_flows must be in [1, max_active_flows]"
  else .ok ()

def validateRetryPolicy (rp : RetryPolicy) : Except String Unit :=
  if rp.enabled then do
    bail (rp.maxRetries == 0) "retry_policy.max_retries must be > 0"
    bail (rp.temperatureStep ≤ 0) "retry_policy.temperature_step must be > 0.0"
    bail (rp.maxTemperature < rp.defaultTemperature)
      "retry_policy.max_temperature must be >= default_temperature"
    bail (rp.maxTemperature > 2)
      "retry_policy.max_temperature must be <= 2.0 (OpenAI-compatible range)"
  else .ok ()

def validateTransientRetry (tr : TransientRetry) : Except String Unit :=
  if tr.maxAttempts > 0 then do
    bail (tr.backoffStart == 0) "backend.transient_retry.backoff_start must be > 0s"
    bail (tr.backoffMax < tr.backoffStart)
      "backend.transient_retry.backoff_max must be >= backoff_start"
  else .ok ()

def validatePriorityPolicy (pp : PriorityPolicy) : Except String Unit := do
  bail (pp.agenticConfirmedThreshold ≤ pp.agenticSuspectedThreshold)
    "priority_policy.agentic_confirmed_threshold must be strictly greater than agentic_suspected_threshold"
  bail (pp.agenticSuspectedThreshold == 0)
    "priority_policy.agentic_suspected_threshold must be >= 1"

def validate (cfg : Config) : Except String Unit := do
  validateBasics cfg
  validateKvPolicy cfg.backpressure.kvPolicy
  validateKvPressure cfg.scheduler.maxActiveFlows cfg.scheduler.kvPressure
  validateRetryPolicy cfg.retryPolicy
  validateTransientRetry cfg.backend.transientRetry
  validatePriorityPolicy cfg.priorityPolicy

theorem sections_of_validate {cfg : Config} (h : validate cfg = .ok ()) :
    validateBasics cfg = .ok () ∧
      validateKvPressure cfg.scheduler.maxActiveFlows cfg.scheduler.kvPressure = .ok () := by
  simp only [validate, andThen_eq_ok] at h
  exact ⟨h.1, h.2.2.1⟩

/-- The retries of an accepted configuration only raise the temperature, and start
    no higher than they end. -/
theorem temperatures_of_validate {cfg : Config} (h : validate cfg = .ok ())
    (enabled : cfg.retryPolicy.enabled = true) :
    0 < cfg.retryPolicy.temperatureStep ∧
      cfg.retryPolicy.defaultTemperature ≤ cfg.retryPolicy.maxTemperature := by
  simp only [validate, andThen_eq_ok] at h
  have accepted := h.2.2.2.1
  simp only [validateRetryPolicy, enabled, if_true, andThen_eq_ok, bail_eq_ok,
    decide_eq_false_iff_not, not_le, not_lt] at accepted
  exact ⟨accepted.2.1, accepted.2.2.1⟩

theorem backoff_of_validate {cfg : Config} (h : validate cfg = .ok ())
    (enabled : 1 ≤ cfg.backend.transientRetry.maxAttempts) :
    cfg.backend.transientRetry.backoffStart ≤ cfg.backend.transientRetry.backoffMax := by
  simp only [validate, andThen_eq_ok] at h
  have accepted := h.2.2.2.2.1
  have positive : cfg.backend.transientRetry.maxAttempts > 0 := enabled
  simp only [validateTransientRetry, if_pos positive, andThen_eq_ok, bail_eq_ok,
    decide_eq_false_iff_not, not_lt] at accepted
  exact accepted.2

/-- A flow is suspected before it is confirmed. -/
theorem thresholds_of_validate {cfg : Config} (h : validate cfg = .ok ()) :
    0 < cfg.priorityPolicy.agenticSuspectedThreshold.toNat ∧
      cfg.priorityPolicy.agenticSuspectedThreshold.toNat <
        cfg.priorityPolicy.agenticConfirmedThreshold.toNat := by
  simp only [validate, andThen_eq_ok] at h
  have accepted := h.2.2.2.2.2
  simp only [validatePriorityPolicy, andThen_eq_ok, bail_eq_ok, decide_eq_false_iff_not,
    UInt32.not_le, beq_eq_false_iff_ne] at accepted
  refine ⟨Nat.pos_of_ne_zero ?_, UInt32.lt_iff_toNat_lt.mp accepted.1⟩
  exact fun zero => accepted.2 (UInt32.toNat_inj.mp zero)

theorem maxActiveFlows_pos {cfg : Config} (h : validate cfg = .ok ()) :
    0 < cfg.scheduler.maxActiveFlows.toNat := by
  have basics := (sections_of_validate h).1
  simp only [validateBasics, andThen_eq_ok, bail_eq_ok, beq_eq_false_iff_ne] at basics
  have nonzero := basics.2.1
  rw [ne_eq, ← UInt32.toNat_inj] at nonzero
  simp only [UInt32.toNat_zero] at nonzero
  omega

/-- The ladder of an accepted configuration only names caps between 1 and the
    static budget. -/
theorem threshold_maxFlows {cfg : Config} (h : validate cfg = .ok ())
    (enabled : cfg.scheduler.kvPressure.enabled = true)
    {t} (member : t ∈ cfg.scheduler.kvPressure.thresholds) :
    1 ≤ t.maxFlows ∧ t.maxFlows ≤ cfg.scheduler.maxActiveFlows.toNat := by
  have accepted := (sections_of_validate h).2
  simp only [validateKvPressure, enabled, if_true, andThen_eq_ok, bail_eq_ok,
    List.any_eq_false] at accepted
  have bounds := accepted.2.2.2 t member
  simp only [Bool.or_eq_true, decide_eq_true_eq, not_or, not_lt] at bounds
  exact bounds

end Config

def Duration.fromMillis (n : Nat) : Duration := n * 1000000

def Duration.fromSecs (n : Nat) : Duration := n * 1000000000

def TransientRetry.default : TransientRetry :=
  { maxAttempts := 3, backoffStart := Duration.fromMillis 500, backoffMax := Duration.fromSecs 4 }

def BackendConfig.default : BackendConfig :=
  { url := ⟨false, "http"⟩
    metricsInterval := Duration.fromSecs 1
    transientRetry := TransientRetry.default }

def SchedulerConfig.default : SchedulerConfig :=
  { maxActiveFlows := 4
    starvationTimeout := Duration.fromSecs 300
    kvBias := { enabled := true, biasFullAt := 9 / 10, pressureBelow := 1 / 2 }
    kvPressure := { enabled := false, thresholds := [] } }

def FlowsConfig.default : FlowsConfig := { defaultWeight := .fin 1, defaultPriority := 50 }

def BackpressureConfig.default : BackpressureConfig :=
  { mode := .blocking
    maxQueueDepth := 100
    maxWait := Duration.fromSecs 10
    kvPolicy :=
      { enabled := false
        rejectThreshold := 95 / 100
        delayThreshold := 80 / 100
        bypassInteractive := true } }

def RetryPolicy.default : RetryPolicy :=
  { enabled := false
    maxRetries := 2
    temperatureStep := 3 / 10
    maxTemperature := 3 / 2
    defaultTemperature := 0 }

def PriorityPolicy.default : PriorityPolicy :=
  { enabled := true
    idleGapThreshold := Duration.fromSecs 30
    agenticSuspectedThreshold := 5
    agenticConfirmedThreshold := 12 }

def Config.default : Config :=
  { backend := .default
    scheduler := .default
    flows := .default
    backpressure := .default
    kvPolicy := none
    retryPolicy := .default
    priorityPolicy := .default }

/-- The defaults pass their own checks. -/
theorem Config.validate_default : Config.default.validate = .ok () := by decide +kernel

end TinyLlb
