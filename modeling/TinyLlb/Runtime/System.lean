import TinyLlb.Library.Machine
import TinyLlb.Scheduler.Rounds

/-! # The scheduler as a running system

Admissions, the admission loop and the backend monitor run concurrently. Each
action below is one atomic piece of one of them: what happens under one lock, or
between two points at which another task can run. An admission pushes its
request, writes `enqueued_at` and notifies the loop in three separate steps, and
the drop handler of a ticket notifies after it has left the lock. An admission
can be cancelled only where its future awaits; dropping the future drops the
receiver first and the guard after it. Everything a task holds at an await is in
its phase, so an admission cannot, for instance, both wait for a ticket and hold
one.

The completion-bias gate is taken to let a request pass at any time. Metrics are
left out except the `llm_active_flows` gauge.
-/

namespace TinyLlb

structure Ticket where
  flowId : FlowId
  workUnit : F64
  deriving DecidableEq

/-- How far an admission has come after its push. -/
inductive Stage where
  /-- `enqueued_at` is still to be written. -/
  | pushed
  /-- `notify_one` is still to be called. -/
  | stamped
  /-- Awaiting the receiver, for hybrid mode since the given time. -/
  | polling (since : Instant)
  deriving DecidableEq

inductive Phase where
  /-- Past the fail-fast check, before the guard exists. -/
  | entered
  | atGate
  /-- Owns the receiver, whose channel may already hold the ticket. -/
  | inQueue (pendingId : Nat) (stage : Stage) (slot : Option Ticket)
  /-- The receiver is gone, the guard is about to be dropped. -/
  | unwinding (pendingId : Option Nat)
  | admitted (ticket : Ticket)
  /-- A drop handler has run up to its `notify_one`; a guard may follow it. -/
  | waking (pendingId : Option Nat)
  | finished
  deriving DecidableEq

/-- One call of `admit`. -/
structure Admission where
  flowId : FlowId
  workUnit : F64
  enter : Instant
  phase : Phase

/-- Where the admission loop stands. -/
inductive LoopPc where
  | parked
  | readCap
  | readState (cap : Nat)
  | select (cap : Nat)
  | send (selection : Selection)
  | panicked (panic : Panic)
  deriving DecidableEq

/-- The snapshot channel of the backend monitor. -/
structure SnapshotWatch where
  version : Nat
  kvUsage : ℚ
  closed : Bool

structure System where
  inner : DrrState
  registry : FlowRegistry
  waitingQueue : List FlowId
  activeFlows : Int
  /-- A permit is stored in the loop's `Notify`. -/
  notified : Bool
  snapshots : SnapshotWatch
  pc : LoopPc
  /-- The snapshot version the loop has seen. -/
  seen : Nat
  monitorAlive : Bool
  admissions : List Admission
  now : Instant
  delivered : FlowId → Int

inductive Action where
  | arrive (flowId : FlowId) (workUnit : F64)
  | createGuard (i : Nat)
  | enqueue (i : Nat)
  | stamp (i : Nat)
  | notify (i : Nat)
  | receive (i : Nat)
  | cancel (i : Nat)
  | timeout (i : Nat)
  | dropGuard (i : Nat)
  | dropTicket (i : Nat)
  | wake (i : Nat)
  | wakeNotified
  | wakeChanged
  | wakeClosed
  | readCap
  | readState
  | trySelect
  | send
  | publish (kvUsage : ℚ)
  | closeMonitor
  | tick (elapsed : Duration)
  | register (reg : FlowRegistration)
  | setPriority (flowId : FlowId) (priority source : Nat)
  | reportAccounting (flowId : FlowId) (restoreCost : Int)
  | deliver (flowId : FlowId) (tokens : Int)
  deriving DecidableEq

/-- What a run makes visible. -/
inductive Event where
  | enqueued (admission : Nat) (flowId : FlowId) (pending : Pending)
  | capRead (pressure : ℚ) (cap : Nat)
  | selected (selection : Selection) (forced : Bool)
  | cancelled (admission : Nat) (flowId : FlowId) (removed : List Pending)
  deriving DecidableEq

namespace System

def start (cfg : Config) : System :=
  { inner := DrrState.new cfg.scheduler.maxActiveFlows.toNat
    registry := FlowRegistry.new cfg.flows.defaultWeight cfg.flows.defaultPriority
    waitingQueue := []
    activeFlows := 0
    notified := false
    snapshots := ⟨0, 0, false⟩
    pc := .parked
    seen := 0
    monitorAlive := true
    admissions := []
    now := 0
    delivered := fun _ => 0 }

def flow (s : System) (f : FlowId) : Flow := s.registry.getOrCreate f

def modifyFlow (s : System) (f : FlowId) (write : Flow → Flow) : System :=
  { s with registry := s.registry.modify f write }

def setPhase (s : System) (i : Nat) (a : Admission) (phase : Phase) : System :=
  { s with admissions := s.admissions.set i { a with phase } }

/-- `admit` up to the fail-fast check, which rejects when too many wait. -/
def rejects (cfg : Config) (s : System) (f : FlowId) : Bool :=
  cfg.backpressure.mode = .failFast &&
    decide ((s.registry.modify f id).sumDepths > cfg.backpressure.maxQueueDepth)

def arrive (s : System) (f : FlowId) (workUnit : F64) : System :=
  { s.modifyFlow f id with admissions := s.admissions ++ [⟨f, workUnit, s.now, .entered⟩] }

/-- `DrrAdmitGuard::new`. -/
def createGuard (s : System) (i : Nat) (a : Admission) : System :=
  { (s.setPhase i a .atGate).modifyFlow a.flowId Flow.incDepth with
    waitingQueue := s.waitingQueue ++ [a.flowId] }

/-- The push under the lock, with `set_pending_id`. -/
def enqueue (s : System) (i : Nat) (a : Admission) : System :=
  { s.setPhase i a (.inQueue s.inner.nextPendingId .pushed none) with
    inner := s.inner.enqueue a.flowId i a.enter a.workUnit }

def stamp (s : System) (i : Nat) (a : Admission) (pendingId : Nat) (slot : Option Ticket) :
    System :=
  (s.setPhase i a (.inQueue pendingId .stamped slot)).modifyFlow a.flowId
    fun flow => flow.setEnqueuedAt (some a.enter)

def notify (s : System) (i : Nat) (a : Admission) (pendingId : Nat) (slot : Option Ticket) :
    System :=
  { s.setPhase i a (.inQueue pendingId (.polling s.now) slot) with notified := true }

/-- What `consume` and the drop of a live guard share. -/
def releaseGuard (s : System) (f : FlowId) : System :=
  { s.modifyFlow f Flow.decDepth with waitingQueue := s.waitingQueue.erase f }

/-- The ticket arrives: `consume`, then both active counters go up. -/
def receive (s : System) (i : Nat) (a : Admission) (ticket : Ticket) : System :=
  { ((s.setPhase i a (.admitted ticket)).releaseGuard a.flowId).modifyFlow a.flowId Flow.incActive
    with activeFlows := s.activeFlows + 1 }

/-- The drop handler of a ticket, without its `notify_one`. -/
def runDropHandler (s : System) (f : FlowId) : System :=
  { s.modifyFlow f Flow.decActive with
    activeFlows := s.activeFlows - 1
    inner := s.inner.release }

/-- The receiver is dropped; a ticket stored in its channel goes with it. -/
def closeReceiver (s : System) (i : Nat) (a : Admission) (pendingId : Nat)
    (slot : Option Ticket) : System :=
  match slot with
  | some ticket => (s.runDropHandler ticket.flowId).setPhase i a (.waking (some pendingId))
  | none => s.setPhase i a (.unwinding (some pendingId))

/-- `DrrAdmitGuard::drop` of a guard that was not consumed. -/
def dropGuard (s : System) (i : Nat) (a : Admission) (pendingId : Option Nat) : System :=
  { ((s.setPhase i a .finished).releaseGuard a.flowId).modifyFlow a.flowId
      (fun flow => flow.setEnqueuedAt none) with
    inner := s.inner.dropGuard a.flowId pendingId }

def dropTicket (s : System) (i : Nat) (a : Admission) (ticket : Ticket) : System :=
  (s.runDropHandler ticket.flowId).setPhase i a (.waking none)

/-- The `notify_one` at the end of a drop handler. -/
def wake (s : System) (i : Nat) (a : Admission) (pendingId : Option Nat) : System :=
  { s.setPhase i a (match pendingId with
      | some id => .unwinding (some id)
      | none => .finished) with notified := true }

def pressure (s : System) : ℚ := clampUsage s.snapshots.kvUsage

/-- `PressureCapHandle::effective` for the current snapshot. -/
def effectiveCap (cfg : Config) (s : System) : Nat :=
  cfg.scheduler.kvPressure.effectiveMax cfg.scheduler.maxActiveFlows.toNat s.pressure

def selectEnv (cfg : Config) (arith : I64Arith) (s : System) (cap : Nat) : SelectEnv :=
  { now := s.now
    starvationTimeout := cfg.scheduler.starvationTimeout
    kvBias := ⟨cfg.scheduler.kvBias, s.pressure, s.delivered⟩
    cap
    arith }

/-- The loop after `try_select` has returned. -/
def afterRound (s : System) (r : Round) : System :=
  { s with
    inner := r.state
    registry := r.registry
    pc := match r.selection with
      | some selection => .send selection
      | none => if r.creditAccumulated then .readCap else .parked }

/-- `tx.send(ticket)` with the receiver alive. -/
def deliverTicket (s : System) (selection : Selection) (a : Admission) (pendingId : Nat)
    (stage : Stage) : System :=
  { s.setPhase selection.pending.tx a
      (.inQueue pendingId stage (some ⟨selection.flowId, selection.workUnit⟩)) with
    pc := .readCap }

/-- `tx.send(ticket)` failed: the ticket is disarmed and its permit given back. -/
def failedSend (s : System) : System :=
  { s with inner := s.inner.release, notified := true, pc := .readCap }

end System

open TinyLlb.System in
/-- One atomic action of the system; `none` where it is not enabled. -/
def nextSystem (cfg : Config) (arith : I64Arith) (s : System) :
    Action → Option (System × Option Event)
  | .arrive f workUnit =>
      if s.rejects cfg f then some (s.modifyFlow f id, none)
      else some (s.arrive f workUnit, none)
  | .createGuard i => do
      let a ← s.admissions[i]?
      match a.phase with
      | .entered => some (s.createGuard i a, none)
      | _ => none
  | .enqueue i => do
      let a ← s.admissions[i]?
      match a.phase with
      | .atGate =>
          some (s.enqueue i a,
            some (.enqueued i a.flowId ⟨s.inner.nextPendingId, i, a.enter, a.workUnit⟩))
      | _ => none
  | .stamp i => do
      let a ← s.admissions[i]?
      match a.phase with
      | .inQueue pendingId .pushed slot => some (s.stamp i a pendingId slot, none)
      | _ => none
  | .notify i => do
      let a ← s.admissions[i]?
      match a.phase with
      | .inQueue pendingId .stamped slot => some (s.notify i a pendingId slot, none)
      | _ => none
  | .receive i => do
      let a ← s.admissions[i]?
      match a.phase with
      | .inQueue _ (.polling _) (some ticket) => some (s.receive i a ticket, none)
      | _ => none
  | .cancel i => do
      let a ← s.admissions[i]?
      match a.phase with
      | .atGate => some (s.setPhase i a (.unwinding none), none)
      | .inQueue pendingId (.polling _) slot => some (s.closeReceiver i a pendingId slot, none)
      | _ => none
  | .timeout i => do
      let a ← s.admissions[i]?
      match a.phase with
      | .inQueue pendingId (.polling since) slot =>
          if cfg.backpressure.mode = .hybrid ∧ since + cfg.backpressure.maxWait ≤ s.now then
            some (s.closeReceiver i a pendingId slot, none)
          else none
      | _ => none
  | .dropGuard i => do
      let a ← s.admissions[i]?
      match a.phase with
      | .unwinding pendingId =>
          some (s.dropGuard i a pendingId,
            some (.cancelled i a.flowId
              ((s.inner.queue a.flowId).filter fun p => decide (pendingId = some p.pendingId))))
      | _ => none
  | .dropTicket i => do
      let a ← s.admissions[i]?
      match a.phase with
      | .admitted ticket => some (s.dropTicket i a ticket, none)
      | _ => none
  | .wake i => do
      let a ← s.admissions[i]?
      match a.phase with
      | .waking pendingId => some (s.wake i a pendingId, none)
      | _ => none
  | .wakeNotified =>
      if s.pc = .parked ∧ s.notified = true then
        some ({ s with notified := false, pc := .readCap }, none)
      else none
  | .wakeChanged =>
      if s.pc = .parked ∧ s.monitorAlive = true ∧ s.seen ≠ s.snapshots.version then
        some ({ s with seen := s.snapshots.version, pc := .readCap }, none)
      else none
  | .wakeClosed =>
      if s.pc = .parked ∧ s.monitorAlive = true ∧ s.seen = s.snapshots.version ∧
          s.snapshots.closed = true then
        some ({ s with monitorAlive := false, pc := .readCap }, none)
      else none
  | .readCap =>
      if s.pc = .readCap then
        some ({ s with pc := .readState (s.effectiveCap cfg) },
          some (.capRead s.pressure (s.effectiveCap cfg)))
      else none
  | .readState =>
      match s.pc with
      | .readState cap =>
          match checkedSub s.inner.maxPermits s.inner.availablePermits with
          | .error panic => some ({ s with pc := .panicked panic }, none)
          | .ok active =>
              if active ≥ cap ∨ s.inner.rrCursor.isEmpty then some ({ s with pc := .parked }, none)
              else some ({ s with pc := .select cap }, none)
      | _ => none
  | .trySelect =>
      match s.pc with
      | .select cap =>
          match trySelect (s.selectEnv cfg arith cap) s.registry s.inner with
          | .error panic => some ({ s with pc := .panicked panic }, none)
          | .ok r =>
              some (s.afterRound r,
                r.selection.map fun selection => .selected selection r.forceAdmit.isSome)
      | _ => none
  | .send =>
      match s.pc with
      | .send selection => do
          let a ← s.admissions[selection.pending.tx]?
          match a.phase with
          | .inQueue pendingId stage none =>
              some (s.deliverTicket selection a pendingId stage, none)
          | .unwinding _ | .finished => some (s.failedSend, none)
          | _ => none
      | _ => none
  | .publish kvUsage =>
      if s.snapshots.closed then none
      else some ({ s with snapshots := ⟨s.snapshots.version + 1, kvUsage, false⟩ }, none)
  | .closeMonitor => some ({ s with snapshots := { s.snapshots with closed := true } }, none)
  | .tick elapsed => some ({ s with now := s.now + elapsed }, none)
  | .register reg =>
      if reg.weight.isLe 0 || decide (reg.priority > 100) then none
      else some ({ s with registry := s.registry.register reg }, none)
  | .setPriority f priority source =>
      some (s.modifyFlow f fun flow => flow.setPriority priority source, none)
  | .reportAccounting f restoreCost =>
      some (s.modifyFlow f fun flow =>
        { flow with credit := arith.store (flow.credit + restoreCost) }, none)
  | .deliver f tokens => some ({ s with delivered := Function.update s.delivered f tokens }, none)

/-- The machine whose runs the theorems are about. -/
def scheduler (cfg : Config) (arith : I64Arith) : Machine System Action Event :=
  { start := System.start cfg, next := nextSystem cfg arith }

end TinyLlb
