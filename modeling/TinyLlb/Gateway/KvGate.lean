import TinyLlb.Cadence
import TinyLlb.Runtime.System

/-! # The KV-cache admission gate

`KvPolicy::check` is the first gate of an admission. It lets a request pass,
rejects it, or parks it until the KV usage is back at the delay threshold. In
blocking mode the reject band is held like the delay band. A park that finds the
snapshot channel closed ends at once, so a closed channel parks nobody.

A `Retry-After` is the exact product that `mul_f64` rounds, in nanoseconds.
Metrics and log lines are left out.
-/

namespace TinyLlb

/-- The configuration with what the gates in front of the scheduler read. -/
structure GatewayConfig extends Config where
  /-- `backpressure.retry_after_base`. -/
  retryAfterBase : Duration
  priorities : Priorities

def GatewayConfig.default : GatewayConfig :=
  { Config.default with retryAfterBase := Duration.fromSecs 1, priorities := .default }

/-- The defaults with the KV policy switched on. -/
def GatewayConfig.withKvPolicy : GatewayConfig :=
  { GatewayConfig.default with
    backpressure :=
      { BackpressureConfig.default with
        kvPolicy := { BackpressureConfig.default.kvPolicy with enabled := true } } }

/-- `retry_after_base * (1 + depth / max_queue_depth)`, three times the base
    where the maximum is zero. -/
def failFastRetryAfter (depth maxQueueDepth : UInt32) (retryAfterBase : Duration) : ℚ :=
  let ratio : ℚ := if maxQueueDepth = 0 then 2 else depth.toNat / maxQueueDepth.toNat
  retryAfterBase * (1 + ratio)

inductive KvmDecision where
  | accept
  | delay
  | reject
  deriving DecidableEq

namespace KvPolicyConfig

/-- Both thresholds are strict. -/
def decide (policy : KvPolicyConfig) (kvUsage : ℚ) : KvmDecision :=
  if kvUsage > policy.rejectThreshold then .reject
  else if kvUsage > policy.delayThreshold then .delay
  else .accept

/-- The decision that counts: blocking mode absorbs a reject into a delay. -/
def decideFor (policy : KvPolicyConfig) (mode : BackpressureMode) (kvUsage : ℚ) : KvmDecision :=
  match policy.decide kvUsage, mode with
  | .reject, .blocking => .delay
  | decision, _ => decision

/-- `wait_for` returns: the usage is low enough, or the channel is closed. -/
def released (policy : KvPolicyConfig) (snapshots : SnapshotWatch) : Bool :=
  Decidable.decide (snapshots.kvUsage ≤ policy.delayThreshold) || snapshots.closed

end KvPolicyConfig

/-- How far `KvPolicy::check` gets before it first suspends. -/
inductive KvGate where
  | pass
  | park
  | reject (retryAfter : ℚ)
  deriving DecidableEq

/-- `KvPolicy::check` up to that point, with the `Retry-After` of a rejection. -/
def KvPolicyConfig.check (policy : KvPolicyConfig) (mode : BackpressureMode) (retryAfter : ℚ)
    (snapshots : SnapshotWatch) (isInteractive : Bool) : KvGate :=
  if !policy.enabled then .pass
  else if policy.bypassInteractive && isInteractive then .pass
  else
    match policy.decideFor mode snapshots.kvUsage with
    | .accept => .pass
    | .delay => if policy.released snapshots then .pass else .park
    | .reject => .reject retryAfter

/-- A rejection and a delay that times out both scale with the delayed count. -/
def GatewayConfig.delayRetryAfter (cfg : GatewayConfig) (delayedCount : UInt32) : ℚ :=
  failFastRetryAfter delayedCount cfg.backpressure.maxQueueDepth cfg.retryAfterBase

def kvCheck (cfg : GatewayConfig) (snapshots : SnapshotWatch) (delayedCount : UInt32)
    (isInteractive : Bool) : KvGate :=
  cfg.backpressure.kvPolicy.check cfg.backpressure.mode (cfg.delayRetryAfter delayedCount) snapshots
    isInteractive

namespace KvPolicyConfig

variable {policy : KvPolicyConfig} {mode : BackpressureMode} {kvUsage : ℚ}

/-- The band in which a request is held: above the delay threshold and, unless
    the mode is blocking, not above the reject threshold. -/
def Holds (policy : KvPolicyConfig) (mode : BackpressureMode) (kvUsage : ℚ) : Prop :=
  policy.delayThreshold < kvUsage ∧ (kvUsage ≤ policy.rejectThreshold ∨ mode = .blocking)

instance : Decidable (policy.Holds mode kvUsage) := inferInstanceAs (Decidable (_ ∧ _))

theorem decideFor_eq_delay_iff :
    policy.decideFor mode kvUsage = .delay ↔
      (policy.rejectThreshold < kvUsage ∧ mode = .blocking) ∨
        (kvUsage ≤ policy.rejectThreshold ∧ policy.delayThreshold < kvUsage) := by
  unfold decideFor decide
  by_cases above : policy.rejectThreshold < kvUsage
  · cases mode <;> simp [above, not_le.mpr above]
  · by_cases high : policy.delayThreshold < kvUsage
    · simp [above, high, not_lt.mp above]
    · simp [above, high]

/-- A request is parked exactly in that band, under an enabled policy that it
    does not bypass and an open channel. -/
theorem check_eq_park_iff {retryAfter : ℚ} {snapshots : SnapshotWatch} {isInteractive : Bool} :
    policy.check mode retryAfter snapshots isInteractive = .park ↔
      policy.enabled = true ∧ ¬ (policy.bypassInteractive = true ∧ isInteractive = true) ∧
        policy.Holds mode snapshots.kvUsage ∧ snapshots.closed = false := by
  have parks : policy.check mode retryAfter snapshots isInteractive = .park ↔
      policy.enabled = true ∧ ¬ (policy.bypassInteractive = true ∧ isInteractive = true) ∧
        policy.decideFor mode snapshots.kvUsage = .delay ∧ policy.released snapshots = false := by
    unfold check
    cases enabled : policy.enabled with
    | false => simp
    | true =>
        by_cases bypass : policy.bypassInteractive = true ∧ isInteractive = true
        · simp [bypass.1, bypass.2]
        · cases decided : policy.decideFor mode snapshots.kvUsage <;> simp [bypass]
  have open_ : policy.released snapshots = false ↔
      policy.delayThreshold < snapshots.kvUsage ∧ snapshots.closed = false := by
    simp [released]
  rw [parks, decideFor_eq_delay_iff, open_]
  unfold Holds
  constructor
  · rintro ⟨enabled, bypass, ⟨-, blocking⟩ | ⟨under, -⟩, high, closed⟩
    · exact ⟨enabled, bypass, ⟨high, .inr blocking⟩, closed⟩
    · exact ⟨enabled, bypass, ⟨high, .inl under⟩, closed⟩
  · rintro ⟨enabled, bypass, ⟨high, band⟩, closed⟩
    refine ⟨enabled, bypass, ?_, high, closed⟩
    by_cases above : policy.rejectThreshold < snapshots.kvUsage
    · exact .inl ⟨above, band.resolve_left (not_le.mpr above)⟩
    · exact .inr ⟨not_lt.mp above, high⟩

end KvPolicyConfig

end TinyLlb
