import TinyLlb.Library.Cursor
import TinyLlb.Scheduler.PressureCap

/-! # The deficit round-robin state and its operations

Everything here runs while the scheduler mutex is held, so each function is one
atomic step on `DrrState`. A failed `expect`, `unwrap` or checked subtraction is
an explicit `Panic`: it would poison the mutex. The metrics that a call sets are
left out, except that a forced selection reports its `record_force_admit`.
-/

namespace TinyLlb

inductive Panic where
  | expectFailed (message : String)
  | unwrapNone
  | subtractOverflow
  deriving DecidableEq

/-- `a - b` on unsigned integers, with the overflow check. -/
def checkedSub (a b : Nat) : Except Panic Nat :=
  if b ≤ a then .ok (a - b) else .error .subtractOverflow

/-- A request in a waiting queue. `tx` names the admission that holds the
    receiving half of the oneshot channel. -/
structure Pending where
  pendingId : Nat
  tx : Nat
  enqueuedAt : Instant
  workUnit : F64
  deriving DecidableEq

/-- `work_unit as i64`. -/
def Pending.cost (p : Pending) : Int := p.workUnit.asI64

abbrev Waiting := Assoc FlowId (List Pending)

structure DrrState where
  waiting : Waiting
  rrCursor : List FlowId
  availablePermits : Nat
  maxPermits : Nat
  nextPendingId : Nat
  deficit : Assoc FlowId Int

/-- `is_starved`: how long a flow has been enqueued, if that exceeds the timeout. -/
def isStarved (flow : Flow) (now : Instant) (timeout : Duration) : Option Duration :=
  match flow.enqueuedAt with
  | some queuedAt =>
      let wait := now.durationSince queuedAt
      if wait > timeout then some wait else none
  | none => none

/-- What a selection reads besides the locked state and the registry. -/
structure SelectEnv where
  now : Instant
  starvationTimeout : Duration
  kvBias : KvBiasHandle
  cap : Nat
  arith : I64Arith

structure Selection where
  flowId : FlowId
  pending : Pending
  workUnit : F64
  deriving DecidableEq

/-- What one call of `try_select` returns and leaves behind. -/
structure Round where
  selection : Option Selection
  creditAccumulated : Bool
  forceAdmit : Option (FlowId × Duration)
  state : DrrState
  registry : FlowRegistry

namespace DrrState

def new (maxActiveFlows : Nat) : DrrState :=
  { waiting := ∅, rrCursor := [], availablePermits := maxActiveFlows,
    maxPermits := maxActiveFlows, nextPendingId := 0, deficit := ∅ }

/-- The requests of a flow, oldest first; none if it has no queue. -/
def queue (s : DrrState) (flowId : FlowId) : List Pending := (s.waiting.lookup flowId).getD []

/-- Accumulated deficit, 0 without an entry. -/
def credit (s : DrrState) (flowId : FlowId) : Int := (s.deficit.lookup flowId).getD 0

/-- Permits that are out. -/
def outstanding (s : DrrState) : Nat := s.maxPermits - s.availablePermits

/-- The locked section of an admission: issue an id, push, join the cursor. -/
def enqueue (s : DrrState) (flowId : FlowId) (tx : Nat) (enter : Instant) (workUnit : F64) :
    DrrState :=
  { s with
    nextPendingId := s.nextPendingId + 1
    waiting := s.waiting.insert flowId
      (s.queue flowId ++ [⟨s.nextPendingId, tx, enter, workUnit⟩])
    rrCursor := Cursor.join flowId s.rrCursor }

/-- The queue a guard leaves behind. A guard that never enqueued has no id and
    removes nothing. -/
def kept (pendingId : Option Nat) (queue : List Pending) : List Pending :=
  match pendingId with
  | some myId => queue.filter fun p => decide (p.pendingId ≠ myId)
  | none => queue

/-- The locked section of the guard's drop, without the clearing of
    `enqueued_at`. -/
def dropGuard (s : DrrState) (flowId : FlowId) (pendingId : Option Nat) : DrrState :=
  match s.waiting.lookup flowId with
  | none => s
  | some queue =>
      if (kept pendingId queue).isEmpty then
        { s with
          waiting := s.waiting.erase flowId
          deficit := s.deficit.erase flowId
          rrCursor := Cursor.retire flowId s.rrCursor }
      else { s with waiting := s.waiting.insert flowId (kept pendingId queue) }

/-- `available_permits += 1`. -/
def release (s : DrrState) : DrrState := { s with availablePermits := s.availablePermits + 1 }

end DrrState

namespace TrySelect

variable (env : SelectEnv) (registry : FlowRegistry)

/-- `waiting.get(fid).is_some_and(|q| !q.is_empty())`. -/
def hasWaiting (waiting : Waiting) (flowId : FlowId) : Bool :=
  (waiting.lookup flowId).any fun queue => !queue.isEmpty

/-- Phase 1: the first starved flow in cursor order, with its wait. -/
def firstStarved (s : DrrState) : Option (FlowId × Duration) :=
  (s.rrCursor.filter (hasWaiting s.waiting)).findSome? fun fid =>
    (isStarved (registry.getOrCreate fid) env.now env.starvationTimeout).map fun wait => (fid, wait)

/-- `waiting.get_mut(fid).and_then(|q| q.pop_front())`. -/
def popFront (waiting : Waiting) (flowId : FlowId) : Option (Pending × Waiting) :=
  match waiting.lookup flowId with
  | some (pending :: rest) => some (pending, waiting.insert flowId rest)
  | _ => none

/-- The served flow pays the cost of its request from its permanent credit, and
    its starvation clock is cleared. -/
def debit (flowId : FlowId) (pending : Pending) : FlowRegistry :=
  registry.modify flowId fun flow =>
    { flow with credit := env.arith.store (flow.credit - pending.cost), enqueuedAt := none }

/-- From the debit of the permanent credit to the permit: what both selection
    paths do once they have popped a request. -/
def grant (s : DrrState) (flowId : FlowId) (pending : Pending) :
    Except Panic (DrrState × FlowRegistry) :=
  let waiting :=
    if (s.waiting.lookup flowId).all List.isEmpty then s.waiting.erase flowId else s.waiting
  let others := Cursor.retire flowId s.rrCursor
  let rrCursor := if hasWaiting waiting flowId then others ++ [flowId] else others
  match checkedSub s.availablePermits 1 with
  | .ok availablePermits =>
      .ok ({ s with waiting, rrCursor, availablePermits }, debit env registry flowId pending)
  | .error panic => .error panic

/-- A starved flow is served whatever its deficit. Unlike `serveEligible` this
    path leaves the deficit entry of the flow alone. -/
def forceSelect (s : DrrState) (flowId : FlowId) (wait : Duration) : Except Panic Round :=
  match popFront s.waiting flowId with
  | none => .error (.expectFailed "starved flow should have pending entry")
  | some (pending, waiting) =>
      match grant env registry { s with waiting } flowId pending with
      | .error panic => .error panic
      | .ok (state, registry) =>
          .ok
            { selection := some ⟨flowId, pending, pending.workUnit⟩
              creditAccumulated := true
              forceAdmit := some (flowId, wait)
              state, registry }

/-- The loop variables of phase 2. Eligible flows carry their cursor index. -/
structure Accumulation where
  deficit : Assoc FlowId Int
  eligible : List (FlowId × Nat)
  credited : Bool

/-- One cursor entry of phase 2. -/
def accumulateStep (waiting : Waiting) (acc : Accumulation) (entry : FlowId × Nat) :
    Accumulation :=
  match waiting.lookup entry.1 with
  | none => acc
  | some [] => acc
  | some (head :: _) =>
      let weight := (registry.getOrCreate entry.1).truncWeight
      if weight ≤ 0 then acc
      else
        let deficit := env.arith.store ((acc.deficit.lookup entry.1).getD 0 + weight)
        { deficit := acc.deficit.insert entry.1 deficit
          eligible := if deficit ≥ head.cost then acc.eligible ++ [entry] else acc.eligible
          credited := true }

def accumulate (s : DrrState) : Accumulation :=
  s.rrCursor.zipIdx.foldl (accumulateStep env registry s.waiting) ⟨s.deficit, [], false⟩

/-- A candidate for phase 3; the head of its queue is unwrapped. -/
def candidate (waiting : Waiting) (entry : FlowId × Nat) : Except Panic FlowCandidate :=
  match ((waiting.lookup entry.1).getD []).head? with
  | none => .error .unwrapNone
  | some head =>
      .ok
        { flowId := entry.1
          priority := (registry.getOrCreate entry.1).priority
          enqueuedAt := head.enqueuedAt
          baseScore := entry.2
          kvFootprint := env.kvBias.footprint entry.1 }

def candidates (waiting : Waiting) : List (FlowId × Nat) → Except Panic (List FlowCandidate)
  | [] => .ok []
  | entry :: rest =>
      match candidate env registry waiting entry, candidates waiting rest with
      | .ok first, .ok others => .ok (first :: others)
      | .error panic, _ => .error panic
      | _, .error panic => .error panic

/-- Phase 3 once a flow is chosen: pop, clear its deficit, grant. -/
def serveEligible (s : DrrState) (eligible : List (FlowId × Nat)) (selected : FlowId) :
    Except Panic Round :=
  if eligible.any fun entry => entry.1 = selected then
    match popFront s.waiting selected with
    | none => .error (.expectFailed "eligible flow should have pending entry")
    | some (pending, waiting) =>
        let s := { s with waiting, deficit := s.deficit.erase selected }
        match grant env registry s selected pending with
        | .error panic => .error panic
        | .ok (state, registry) =>
            .ok
              { selection := some ⟨selected, pending, pending.workUnit⟩
                creditAccumulated := true
                forceAdmit := none
                state, registry }
  else .error (.expectFailed "selected should be in eligible list")

/-- The empty-queue clean-up at the end of a round without selection. -/
def dropEmpty (s : DrrState) : DrrState :=
  (s.waiting.keysWhere List.isEmpty).foldl
    (fun s fid =>
      { s with
        waiting := s.waiting.erase fid
        deficit := s.deficit.erase fid
        rrCursor := Cursor.retire fid s.rrCursor })
    s

/-- Phases 2 and 3. -/
def regularRound (s : DrrState) : Except Panic Round :=
  let acc := accumulate env registry s
  let s := { s with deficit := acc.deficit }
  if acc.eligible.isEmpty then
    .ok
      { selection := none
        creditAccumulated := acc.credited
        forceAdmit := none
        state := dropEmpty { s with rrCursor := Cursor.rotate s.rrCursor }
        registry }
  else
    match candidates env registry s.waiting acc.eligible with
    | .error panic => .error panic
    | .ok cands =>
        match env.kvBias.select cands env.kvBias.pressure with
        | none => .error (.expectFailed "candidates should not be empty")
        | some selected => serveEligible env registry s acc.eligible selected

end TrySelect

open TrySelect in
/-- One call of `try_select`. -/
def trySelect (env : SelectEnv) (registry : FlowRegistry) (s : DrrState) : Except Panic Round :=
  match checkedSub s.maxPermits s.availablePermits with
  | .error panic => .error panic
  | .ok active =>
      if active ≥ env.cap then .ok ⟨none, false, none, s, registry⟩
      else if s.rrCursor.isEmpty then .ok ⟨none, false, none, s, registry⟩
      else
        match firstStarved env registry s with
        | some (fid, wait) => forceSelect env registry s fid wait
        | none => regularRound env registry s

end TinyLlb
