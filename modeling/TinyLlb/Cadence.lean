import TinyLlb.Config
import TinyLlb.Flow

/-! # Request cadence

The heuristic that tells interactive flows from batch ones. Every arrival of a flow
moves a small state machine, and the state it is in gives the priority of flows that
nobody has pinned. The times of the two clocks are given with each arrival: `now` of
the monotonic one and `unix`, in seconds, of the other.
-/

namespace TinyLlb

inductive PriorityClass where
  | interactive
  | agent
  | background
  deriving DecidableEq

/-- `priorities` of the configuration. -/
structure Priorities where
  interactive : Nat
  agent : Nat
  background : Nat

def Priorities.default : Priorities := { interactive := 100, agent := 50, background := 10 }

/-- The number of a class. -/
def Priorities.value (classes : Priorities) : PriorityClass → Nat
  | .interactive => classes.interactive
  | .agent => classes.agent
  | .background => classes.background

inductive CadenceState where
  /-- No evidence yet. -/
  | cold
  | interactive
  | agenticSuspected
  | agenticConfirmed
  deriving DecidableEq

def CadenceState.priority (classes : Priorities) : CadenceState → Nat
  | cold => classes.interactive
  | interactive => classes.interactive
  | agenticSuspected => classes.agent
  | agenticConfirmed => classes.background

structure Cadence where
  lastArrival : Option Instant
  /-- Arrivals since the last turn boundary; a counter that wraps. -/
  continuousArrivalCount : UInt32
  state : CadenceState
  lastSeen : Nat

namespace Cadence

def new (unix : Nat) : Cadence :=
  { lastArrival := none, continuousArrivalCount := 0, state := .cold, lastSeen := unix }

/-- The state after an arrival within a turn, the `count`-th in a row. -/
def demote (policy : PriorityPolicy) (count : UInt32) : CadenceState → CadenceState
  | .cold => if count ≥ policy.agenticSuspectedThreshold then .agenticSuspected else .cold
  | .interactive =>
      if count ≥ policy.agenticSuspectedThreshold then .agenticSuspected else .interactive
  | .agenticSuspected =>
      if count ≥ policy.agenticConfirmedThreshold then .agenticConfirmed else .agenticSuspected
  | .agenticConfirmed => .agenticConfirmed

/-- An arrival, with the gap since the one before it. -/
def arrive (policy : PriorityPolicy) (cadence : Cadence) (now : Instant) (unix : Nat)
    (isTurnBoundary : Bool) : Cadence × Option Duration :=
  let prevGap := cadence.lastArrival.map now.durationSince
  let isIdleChunk := isTurnBoundary && prevGap.any fun gap => decide (gap ≥ policy.idleGapThreshold)
  let seen := { cadence with lastArrival := some now, lastSeen := unix }
  let moved :=
    if isIdleChunk then { seen with state := .interactive, continuousArrivalCount := 0 }
    -- The user took over, but without a pause nothing is promoted.
    else if isTurnBoundary then { seen with continuousArrivalCount := 0 }
    else
      let count := cadence.continuousArrivalCount + 1
      { seen with continuousArrivalCount := count, state := demote policy count cadence.state }
  (moved, prevGap)

end Cadence

structure CadenceRegistry where
  inner : Assoc FlowId Cadence
  policy : PriorityPolicy
  classes : Priorities

namespace CadenceRegistry

def new (policy : PriorityPolicy) (classes : Priorities) : CadenceRegistry :=
  { inner := ∅, policy, classes }

/-- The entry of a flow, created if there is none. -/
def entry (r : CadenceRegistry) (f : FlowId) (unix : Nat) : Cadence :=
  (r.inner.lookup f).getD (.new unix)

def recordArrival (r : CadenceRegistry) (f : FlowId) (now : Instant) (unix : Nat)
    (isTurnBoundary : Bool) : CadenceRegistry × Option Duration :=
  let arrived := (r.entry f unix).arrive r.policy now unix isTurnBoundary
  ({ r with inner := r.inner.insert f arrived.1 }, arrived.2)

/-- Only the heuristic may write, and only where nothing is pinned. -/
def classifyAndApply (r : CadenceRegistry) (flow : Flow) (f : FlowId) (unix : Nat) :
    CadenceRegistry × Flow :=
  if flow.prioritySource ≠ 0 then (r, flow)
  else if r.policy.enabled = false then (r, flow)
  else
    let entry := r.entry f unix
    ({ r with inner := r.inner.insert f entry },
      { flow with priority := entry.state.priority r.classes })

def stateOf (r : CadenceRegistry) (f : FlowId) : CadenceState :=
  ((r.inner.lookup f).map Cadence.state).getD .cold

/-- Drop the entries that have not been seen for `ttl` seconds. -/
def reapIdle (r : CadenceRegistry) (unix ttl : Nat) : CadenceRegistry :=
  let stale := r.inner.keysWhere fun cadence => decide (cadence.lastSeen < unix - ttl)
  { r with inner := stale.foldl (fun inner f => inner.erase f) r.inner }

@[simp] theorem policy_recordArrival (r : CadenceRegistry) (f : FlowId) (now : Instant) (unix : Nat)
    (isTurnBoundary : Bool) : (r.recordArrival f now unix isTurnBoundary).1.policy = r.policy := rfl

@[simp] theorem classes_recordArrival (r : CadenceRegistry) (f : FlowId) (now : Instant) (unix : Nat)
    (isTurnBoundary : Bool) : (r.recordArrival f now unix isTurnBoundary).1.classes = r.classes := rfl

section

variable {r : CadenceRegistry} {flow : Flow} {f : FlowId}

theorem classifyAndApply_pinned (pinned : flow.prioritySource ≠ 0) (unix : Nat) :
    r.classifyAndApply flow f unix = (r, flow) := by
  simp [classifyAndApply, pinned]

theorem classifyAndApply_free (free : flow.prioritySource = 0) (enabled : r.policy.enabled = true)
    {cadence : Cadence} (present : r.inner.lookup f = some cadence) (unix : Nat) :
    (r.classifyAndApply flow f unix).2 = { flow with priority := cadence.state.priority r.classes } ∧
      (r.classifyAndApply flow f unix).1.stateOf f = cadence.state := by
  simp [classifyAndApply, free, enabled, entry, present, stateOf]

theorem classifyAndApply_flow (r : CadenceRegistry) (flow : Flow) (f : FlowId) (unix : Nat) :
    (r.classifyAndApply flow f unix).2 = flow.setPriority
      (if flow.prioritySource = 0 ∧ r.policy.enabled = true then
        (r.entry f unix).state.priority r.classes else flow.priority) flow.prioritySource := by
  unfold classifyAndApply
  by_cases free : flow.prioritySource = 0
  · cases enabled : r.policy.enabled with
    | false => simp [Flow.setPriority]
    | true => simp [free, Flow.setPriority]
  · simp [free, Flow.setPriority]

theorem policy_classifyAndApply (r : CadenceRegistry) (flow : Flow) (f : FlowId) (unix : Nat) :
    (r.classifyAndApply flow f unix).1.policy = r.policy ∧
      (r.classifyAndApply flow f unix).1.classes = r.classes := by
  unfold classifyAndApply
  split
  · exact ⟨rfl, rfl⟩
  · split <;> exact ⟨rfl, rfl⟩

theorem prioritySource_classifyAndApply (r : CadenceRegistry) (flow : Flow) (f : FlowId) (unix : Nat) :
    (r.classifyAndApply flow f unix).2.prioritySource = flow.prioritySource := by
  unfold classifyAndApply
  split
  · rfl
  · split <;> rfl

theorem lookup_recordArrival (r : CadenceRegistry) (f : FlowId) (now : Instant) (unix : Nat)
    (isTurnBoundary : Bool) :
    (r.recordArrival f now unix isTurnBoundary).1.inner.lookup f =
      some ((r.entry f unix).arrive r.policy now unix isTurnBoundary).1 := by
  simp [recordArrival]

end

end CadenceRegistry

end TinyLlb
