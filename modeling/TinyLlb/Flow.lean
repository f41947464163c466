import TinyLlb.Library.Assoc
import TinyLlb.Number

/-! # Flows and their registry

A flow is the unit the scheduler is fair between. The registry hands out one
shared `Flow` per identifier, so a write through any handle is a write to the
registry: `modify` is `get_or_create` followed by that write. Eviction of idle
flows and the `last_seen` timestamp that drives it are not modelled.
-/

namespace TinyLlb

/-- Opaque identifier of a flow. -/
structure FlowId where
  name : String
  deriving DecidableEq

/-- A point in time, and a length of time, in nanoseconds. -/
abbrev Instant := Nat

abbrev Duration := Nat

/-- Duration since an earlier instant; zero when that instant lies ahead. -/
def Instant.durationSince (now earlier : Instant) : Duration := now - earlier

structure Flow where
  id : FlowId
  weight : F64
  priority : Nat
  /-- Requests of this flow that hold an admit guard. -/
  depth : UInt32
  /-- Permanent accounting balance, never read by the selection. -/
  credit : Int
  /-- When this flow was most recently enqueued. -/
  enqueuedAt : Option Instant
  /-- Requests of this flow in flight; an atomic counter that wraps. -/
  active : UInt32
  /-- 0 heuristic, 1 header, 2 admin API. -/
  prioritySource : Nat

namespace Flow

def new (id : FlowId) (defaultWeight : F64) (defaultPriority : Nat) : Flow :=
  { id, weight := defaultWeight, priority := defaultPriority, depth := 0, credit := 0,
    enqueuedAt := none, active := 0, prioritySource := 0 }

/-- The weight as the scheduler reads it: `flow.weight() as i64`. -/
def truncWeight (flow : Flow) : Int := flow.weight.asI64

def incActive (flow : Flow) : Flow := { flow with active := flow.active + 1 }

def decActive (flow : Flow) : Flow := { flow with active := flow.active - 1 }

def incDepth (flow : Flow) : Flow := { flow with depth := flow.depth + 1 }

def decDepth (flow : Flow) : Flow := { flow with depth := flow.depth - 1 }

def setEnqueuedAt (flow : Flow) (at_ : Option Instant) : Flow := { flow with enqueuedAt := at_ }

def setPriority (flow : Flow) (priority source : Nat) : Flow :=
  { flow with priority, prioritySource := source }

end Flow

structure FlowRegistry where
  flows : Assoc FlowId Flow
  defaultWeight : F64
  defaultPriority : Nat

/-- Payload of `POST /flows`. -/
structure FlowRegistration where
  id : FlowId
  weight : F64
  priority : Nat
  deriving DecidableEq

namespace FlowRegistry

def new (defaultWeight : F64) (defaultPriority : Nat) : FlowRegistry :=
  { flows := ∅, defaultWeight, defaultPriority }

/-- The flow behind the handle that `get_or_create` returns. -/
def getOrCreate (r : FlowRegistry) (id : FlowId) : Flow :=
  (r.flows.lookup id).getD (Flow.new id r.defaultWeight r.defaultPriority)

/-- Write through the handle that `get_or_create` returns. -/
def modify (r : FlowRegistry) (id : FlowId) (write : Flow → Flow) : FlowRegistry :=
  { r with flows := r.flows.insert id (write (r.getOrCreate id)) }

/-- Upsert with explicit weight and priority; an existing flow keeps its
    counters and a new one starts with the defaults of `Flow.new`. -/
def register (r : FlowRegistry) (reg : FlowRegistration) : FlowRegistry :=
  r.modify reg.id fun flow =>
    { flow with weight := reg.weight, priority := reg.priority, prioritySource := 2 }

/-- Sum of the per-flow depth counters. -/
def sumDepths (r : FlowRegistry) : UInt32 :=
  r.flows.entries.foldl (fun sum entry => sum + entry.2.depth) 0

theorem sumDepths_eq_total (r : FlowRegistry) :
    r.sumDepths = UInt32.ofNat (Assoc.total (fun _ flow => flow.depth.toNat) r.flows) := by
  have fold : ∀ (entries : List (Sigma fun _ : FlowId => Flow)) (n : Nat),
      entries.foldl (fun sum entry => sum + entry.2.depth) (UInt32.ofNat n) =
        UInt32.ofNat (entries.foldl (fun sum entry => sum + entry.2.depth.toNat) n) := by
    intro entries
    induction entries with
    | nil => intro n; rfl
    | cons entry rest ih =>
        intro n
        simp only [List.foldl_cons, ← ih, UInt32.ofNat_add, UInt32.ofNat_toNat]
  exact fold r.flows.entries 0

@[simp] theorem getOrCreate_modify (r : FlowRegistry) (id : FlowId) (write : Flow → Flow)
    (k : FlowId) :
    (r.modify id write).getOrCreate k =
      if k = id then write (r.getOrCreate id) else r.getOrCreate k := by
  simp only [getOrCreate, modify, Assoc.lookup_insert]
  split <;> rfl

@[simp] theorem getOrCreate_register (r : FlowRegistry) (reg : FlowRegistration) (k : FlowId) :
    (r.register reg).getOrCreate k =
      if k = reg.id then
        { r.getOrCreate reg.id with
          weight := reg.weight, priority := reg.priority, prioritySource := 2 }
      else r.getOrCreate k := by
  simp only [register, getOrCreate_modify]

end FlowRegistry

end TinyLlb
