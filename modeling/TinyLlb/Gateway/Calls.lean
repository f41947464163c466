import TinyLlb.Gateway.KvGate
import TinyLlb.Gateway.Lifecycle
import TinyLlb.Provenance
import TinyLlb.Runtime.Permits

/-! # Requests on their way through the gateway

A call of `admit_with_turn_boundary` is classified by the cadence heuristic, passes
the KV gate, then the stall gate, and then asks the scheduler. Once the caller has
its ticket it opens a lifecycle guard, whose drop reports to the scheduler what is
to be restored. Between the ticket and the guard nothing is awaited, so a ticket is
not dropped before its guard exists.

Here the scheduler moves by its own actions. Arrivals come from the calls,
reports and delivered tokens from the guards, and everything else from outside as
before, also the priorities that a header or the admin API sets. A guard that was
dropped is kept for the record, since what it charged is never undone.
-/

namespace TinyLlb

inductive CallPhase where
  /-- Parked in the KV-delay wait since the given time. -/
  | delayed (since : Instant)
  /-- Past the KV gate. -/
  | passed
  /-- Past the stall gate. -/
  | cleared
  /-- In the scheduler, as the admission with the given number. -/
  | admitting (admission : Nat)
  | rejected (retryAfter : ℚ)
  /-- The client went away while the call was parked. -/
  | dropped
  deriving DecidableEq

/-- One call of `admit_with_turn_boundary`. -/
structure Call where
  flowId : FlowId
  workUnit : F64
  phase : CallPhase

inductive Lifecycle where
  | none
  | open_ (guard : LifecycleGuard)
  | dropped (guard : LifecycleGuard)
  deriving DecidableEq

structure Gateway where
  system : System
  calls : List Call
  /-- `KvPolicy::delayed_count`. -/
  delayedCount : UInt32
  stalled : Bool
  /-- The lifecycle guard of each admission. -/
  lifecycle : Nat → Lifecycle
  progress : FlowProgressTracker
  cadence : CadenceRegistry

inductive GatewayAction where
  /-- A call arrives, at the second `unix` of the wall clock. -/
  | request (flowId : FlowId) (body : RequestBody) (unix : Nat) (isTurnBoundary : Bool)
  | resume (call : Nat)
  | delayTimeout (call : Nat)
  | disconnect (call : Nat)
  | stallGate (call : Nat)
  | admitInner (call : Nat)
  | openGuard (i : Nat)
  | addDelivered (i : Nat) (count : Int)
  | markCompleted (i : Nat)
  | dropLifecycle (i : Nat)
  | setStall (stalled : Bool)
  /-- `CadenceRegistry::reap_idle`. -/
  | reapCadence (unix ttl : Nat)
  /-- A step of the scheduler itself. -/
  | sched (action : Action)
  deriving DecidableEq

namespace Gateway

def start (cfg : GatewayConfig) : Gateway :=
  { system := System.start cfg.toConfig
    calls := []
    delayedCount := 0
    stalled := false
    lifecycle := fun _ => .none
    progress := ∅
    cadence := .new cfg.priorityPolicy cfg.priorities }

def isInteractive (cfg : GatewayConfig) (g : Gateway) (f : FlowId) : Bool :=
  decide ((g.system.flow f).priority = cfg.priorities.interactive)

/-- `record_arrival` and `classify_and_apply` of an arriving call. -/
def classify (g : Gateway) (f : FlowId) (unix : Nat) (isTurnBoundary : Bool) : Gateway :=
  let admitted := (PriorityState.mk g.system.registry g.cadence).admitWithTurnBoundary f
    g.system.now unix isTurnBoundary
  { g with system := { g.system with registry := admitted.registry }, cadence := admitted.cadence }

/-- `KvPolicy::check` for a classified call, up to its end or to its wait. -/
def enterKvGate (cfg : GatewayConfig) (g : Gateway) (f : FlowId) (body : RequestBody) : Gateway :=
  let enter (phase : CallPhase) (delayedCount : UInt32) : Gateway :=
    { g with calls := g.calls ++ [⟨f, extractMaxTokens body, phase⟩], delayedCount }
  match kvCheck cfg g.system.snapshots g.delayedCount (g.isInteractive cfg f) with
  | .pass => enter .passed g.delayedCount
  | .park => enter (.delayed g.system.now) (g.delayedCount + 1)
  | .reject retryAfter => enter (.rejected retryAfter) g.delayedCount

/-- `admit_with_turn_boundary` up to the end of the KV gate, or to its wait. -/
def request (cfg : GatewayConfig) (g : Gateway) (f : FlowId) (body : RequestBody) (unix : Nat)
    (isTurnBoundary : Bool) : Gateway :=
  (g.classify f unix isTurnBoundary).enterKvGate cfg f body

/-- The priority a call finds its flow with: what was pinned or the heuristic has
    left alone, else that of the cadence state to which the arrival itself leads. -/
def arrivalPriority (g : Gateway) (f : FlowId) (unix : Nat) (isTurnBoundary : Bool) : Nat :=
  if (g.system.flow f).prioritySource = 0 ∧ g.cadence.policy.enabled = true then
    let arrived := (g.cadence.entry f unix).arrive g.cadence.policy g.system.now unix isTurnBoundary
    arrived.1.state.priority g.cadence.classes
  else (g.system.flow f).priority

/-- How the KV gate decides on a call that arrives. -/
def gateOf (cfg : GatewayConfig) (g : Gateway) (f : FlowId) (unix : Nat) (isTurnBoundary : Bool) :
    KvGate :=
  kvCheck cfg g.system.snapshots g.delayedCount
    (decide (g.arrivalPriority f unix isTurnBoundary = cfg.priorities.interactive))

def setCall (g : Gateway) (c : Nat) (call : Call) (phase : CallPhase) : Gateway :=
  { g with calls := g.calls.set c { call with phase } }

/-- The end of a delay wait, whichever way: the `DelayGuard` is dropped. -/
def leaveDelay (g : Gateway) (c : Nat) (call : Call) (phase : CallPhase) : Gateway :=
  { g.setCall c call phase with delayedCount := g.delayedCount - 1 }

/-- The scheduler takes one of its steps. -/
def drive (cfg : GatewayConfig) (arith : I64Arith) (g : Gateway) (action : Action) :
    Option (Gateway × Option Event) :=
  (nextSystem cfg.toConfig arith g.system action).map fun next =>
    ({ g with system := next.1 }, next.2)

def setLifecycle (g : Gateway) (i : Nat) (lifecycle : Lifecycle) : Gateway :=
  { g with lifecycle := Function.update g.lifecycle i lifecycle }

/-- Write the tracker, of which the scheduler reads the delivered tokens. -/
def setProgress (g : Gateway) (f : FlowId) (progress : FlowProgressTracker) : Gateway :=
  { g with
    progress
    system :=
      { g.system with
        delivered := Function.update g.system.delivered f (progress.deliveredFor f) } }

/-- `LifecycleGuard::new`, which registers the estimate. -/
def openGuard (arith : I64Arith) (g : Gateway) (i : Nat) (a : Admission) : Gateway :=
  (g.setLifecycle i (.open_ (LifecycleGuard.new a.flowId a.workUnit.asI64))).setProgress a.flowId
    (g.progress.register arith a.flowId a.workUnit.asI64)

def addDelivered (arith : I64Arith) (g : Gateway) (i : Nat) (guard : LifecycleGuard) (count : Int) :
    Gateway :=
  (g.setLifecycle i (.open_ (guard.addDeliveredTokens arith count))).setProgress guard.flowId
    (g.progress.updateDelivered arith guard.flowId count)

/-- The drop of a lifecycle guard up to its report. -/
def closeGuard (arith : I64Arith) (g : Gateway) (i : Nat) (guard : LifecycleGuard) : Gateway :=
  (g.setLifecycle i (.dropped guard)).setProgress guard.flowId
    (g.progress.unregister arith guard.flowId guard.estimatedCost guard.deliveredTokens)

/-- The steps of the scheduler that do not come from a call or a guard. -/
def leavesToScheduler (g : Gateway) : Action → Bool
  | .arrive _ _ | .reportAccounting _ _ | .deliver _ _ => false
  | .dropTicket i => decide (g.lifecycle i ≠ .none)
  | _ => true

end Gateway

/-- The `Retry-After` of a fail-fast rejection. -/
def GatewayConfig.fullRetryAfter (cfg : GatewayConfig) (s : System) (f : FlowId) : ℚ :=
  failFastRetryAfter (s.registry.modify f id).sumDepths cfg.backpressure.maxQueueDepth
    cfg.retryAfterBase

namespace Gateway

/-- `inner.admit` up to the fail-fast check, whose rejection ends the call. -/
def admitInner (cfg : GatewayConfig) (g : Gateway) (c : Nat) (call : Call) : Gateway :=
  if g.system.rejects cfg.toConfig call.flowId then
    g.setCall c call (.rejected (cfg.fullRetryAfter g.system call.flowId))
  else g.setCall c call (.admitting g.system.admissions.length)

/-- `Scheduler::queue_depth`. -/
def queueDepth (g : Gateway) : UInt32 := g.system.registry.sumDepths + g.delayedCount

end Gateway

open TinyLlb.Gateway in
/-- One atomic action of the gateway; `none` where it is not enabled. -/
def nextGateway (cfg : GatewayConfig) (arith : I64Arith) (g : Gateway) :
    GatewayAction → Option (Gateway × Option Event)
  | .request f body unix isTurnBoundary => some (g.request cfg f body unix isTurnBoundary, none)
  | .resume c => do
      let call ← g.calls[c]?
      match call.phase with
      | .delayed _ =>
          if cfg.backpressure.kvPolicy.released g.system.snapshots then
            some (g.leaveDelay c call .passed, none)
          else none
      | _ => none
  | .delayTimeout c => do
      let call ← g.calls[c]?
      match call.phase with
      | .delayed since =>
          if cfg.backpressure.mode ≠ .blocking ∧ since + cfg.backpressure.maxWait ≤ g.system.now ∧
              cfg.backpressure.kvPolicy.released g.system.snapshots = false then
            some (g.leaveDelay c call (.rejected (cfg.delayRetryAfter g.delayedCount)), none)
          else none
      | _ => none
  | .disconnect c => do
      let call ← g.calls[c]?
      match call.phase with
      | .delayed _ => some (g.leaveDelay c call .dropped, none)
      | _ => none
  | .stallGate c => do
      let call ← g.calls[c]?
      match call.phase with
      | .passed =>
          some (g.setCall c call (if g.stalled then .rejected 5000000000 else .cleared), none)
      | _ => none
  | .admitInner c => do
      let call ← g.calls[c]?
      match call.phase with
      | .cleared => (g.admitInner cfg c call).drive cfg arith (.arrive call.flowId call.workUnit)
      | _ => none
  | .openGuard i => do
      let a ← g.system.admissions[i]?
      match a.phase, g.lifecycle i with
      | .admitted _, .none => some (g.openGuard arith i a, none)
      | _, _ => none
  | .addDelivered i count =>
      match g.lifecycle i with
      | .open_ guard => if 0 < count then some (g.addDelivered arith i guard count, none) else none
      | _ => none
  | .markCompleted i =>
      match g.lifecycle i with
      | .open_ guard => some (g.setLifecycle i (.open_ guard.markCompleted), none)
      | _ => none
  | .dropLifecycle i =>
      match g.lifecycle i with
      | .open_ guard =>
          (g.closeGuard arith i guard).drive cfg arith
            (.reportAccounting guard.flowId (guard.restoreCost arith))
      | _ => none
  | .setStall stalled => some ({ g with stalled }, none)
  | .reapCadence unix ttl => some ({ g with cadence := g.cadence.reapIdle unix ttl }, none)
  | .sched action => if g.leavesToScheduler action then g.drive cfg arith action else none

/-- The gateway over the scheduler. -/
def gateway (cfg : GatewayConfig) (arith : I64Arith) : Machine Gateway GatewayAction Event :=
  { start := Gateway.start cfg, next := nextGateway cfg arith }

open TinyLlb.Gateway in
/-- Everything a step of the gateway can do. -/
inductive GatewayStep (cfg : GatewayConfig) (arith : I64Arith) (g : Gateway) :
    GatewayAction → Option Event → Gateway → Prop where
  | request {f body unix isTurnBoundary} :
      GatewayStep cfg arith g (.request f body unix isTurnBoundary) none
        (g.request cfg f body unix isTurnBoundary)
  | resume {c call since} (found : g.calls[c]? = some call) (phase : call.phase = .delayed since)
      (released : cfg.backpressure.kvPolicy.released g.system.snapshots = true) :
      GatewayStep cfg arith g (.resume c) none (g.leaveDelay c call .passed)
  | delayTimeout {c call since} (found : g.calls[c]? = some call)
      (phase : call.phase = .delayed since) (bounded : cfg.backpressure.mode ≠ .blocking)
      (late : since + cfg.backpressure.maxWait ≤ g.system.now) :
      GatewayStep cfg arith g (.delayTimeout c) none
        (g.leaveDelay c call (.rejected (cfg.delayRetryAfter g.delayedCount)))
  | disconnect {c call since} (found : g.calls[c]? = some call)
      (phase : call.phase = .delayed since) :
      GatewayStep cfg arith g (.disconnect c) none (g.leaveDelay c call .dropped)
  | stallGate {c call} (found : g.calls[c]? = some call) (phase : call.phase = .passed) :
      GatewayStep cfg arith g (.stallGate c) none
        (g.setCall c call (if g.stalled then .rejected 5000000000 else .cleared))
  | refused {c call} (found : g.calls[c]? = some call) (phase : call.phase = .cleared)
      (full : g.system.rejects cfg.toConfig call.flowId = true) :
      GatewayStep cfg arith g (.admitInner c) none
        { g.setCall c call (.rejected (cfg.fullRetryAfter g.system call.flowId)) with
          system := g.system.modifyFlow call.flowId id }
  | admitInner {c call} (found : g.calls[c]? = some call) (phase : call.phase = .cleared)
      (room : g.system.rejects cfg.toConfig call.flowId = false) :
      GatewayStep cfg arith g (.admitInner c) none
        { g.setCall c call (.admitting g.system.admissions.length) with
          system := g.system.arrive call.flowId call.workUnit }
  | openGuard {i a ticket} (found : g.system.admissions[i]? = some a)
      (phase : a.phase = .admitted ticket) (fresh : g.lifecycle i = .none) :
      GatewayStep cfg arith g (.openGuard i) none (g.openGuard arith i a)
  | addDelivered {i guard count} (live : g.lifecycle i = .open_ guard) (positive : 0 < count) :
      GatewayStep cfg arith g (.addDelivered i count) none (g.addDelivered arith i guard count)
  | markCompleted {i guard} (live : g.lifecycle i = .open_ guard) :
      GatewayStep cfg arith g (.markCompleted i) none
        (g.setLifecycle i (.open_ guard.markCompleted))
  | dropLifecycle {i guard} (live : g.lifecycle i = .open_ guard) :
      GatewayStep cfg arith g (.dropLifecycle i) none
        { g.closeGuard arith i guard with
          system := (g.closeGuard arith i guard).system.modifyFlow guard.flowId fun flow =>
            { flow with credit := arith.store (flow.credit + guard.restoreCost arith) } }
  | setStall {stalled} : GatewayStep cfg arith g (.setStall stalled) none { g with stalled }
  | reapCadence {unix ttl} : GatewayStep cfg arith g (.reapCadence unix ttl) none
      { g with cadence := g.cadence.reapIdle unix ttl }
  | sched {action event s'} (own : g.leavesToScheduler action = true)
      (step : nextSystem cfg.toConfig arith g.system action = some (s', event)) :
      GatewayStep cfg arith g (.sched action) event { g with system := s' }

section

variable {cfg : GatewayConfig} {arith : I64Arith} {g g' : Gateway} {action : GatewayAction}
  {event : Option Event}

theorem GatewayStep.of_next (h : nextGateway cfg arith g action = some (g', event)) :
    GatewayStep cfg arith g action event g' := by
  cases action with
  | request f body unix isTurnBoundary =>
      cases h
      exact .request
  | resume c =>
      obtain ⟨call, found, h⟩ := Option.bind_eq_some_iff.mp h
      split at h
      · split at h
        · cases h
          exact .resume found ‹_› ‹_›
        · cases h
      · cases h
  | delayTimeout c =>
      obtain ⟨call, found, h⟩ := Option.bind_eq_some_iff.mp h
      split at h
      · split at h
        · rename_i late
          cases h
          exact .delayTimeout found ‹_› late.1 late.2.1
        · cases h
      · cases h
  | disconnect c =>
      obtain ⟨call, found, h⟩ := Option.bind_eq_some_iff.mp h
      split at h
      · cases h
        exact .disconnect found ‹_›
      · cases h
  | stallGate c =>
      obtain ⟨call, found, h⟩ := Option.bind_eq_some_iff.mp h
      split at h
      · cases h
        exact .stallGate found ‹_›
      · cases h
  | admitInner c =>
      obtain ⟨call, found, h⟩ := Option.bind_eq_some_iff.mp h
      split at h
      · rename_i phase
        obtain ⟨next, arrives, same⟩ := Option.map_eq_some_iff.mp h
        cases same
        cases full : g.system.rejects cfg.toConfig call.flowId with
        | true =>
            have kept : (g.admitInner cfg c call).system = g.system := by
              simp [Gateway.admitInner, full]
              rfl
            rw [kept] at arrives
            simp only [nextSystem, full, if_true, Option.some.injEq] at arrives
            subst arrives
            have refused : GatewayStep cfg arith g (.admitInner c) none _ := .refused found phase full
            simpa [Gateway.admitInner, full] using refused
        | false =>
            have kept : (g.admitInner cfg c call).system = g.system := by
              simp [Gateway.admitInner, full]
              rfl
            rw [kept] at arrives
            simp only [nextSystem, full, Bool.false_eq_true, if_false, Option.some.injEq] at arrives
            subst arrives
            have admitted : GatewayStep cfg arith g (.admitInner c) none _ := .admitInner found phase full
            simpa [Gateway.admitInner, full] using admitted
      · cases h
  | openGuard i =>
      obtain ⟨a, found, h⟩ := Option.bind_eq_some_iff.mp h
      split at h
      · cases h
        exact .openGuard found ‹_› ‹_›
      · cases h
  | addDelivered i count =>
      simp only [nextGateway] at h
      split at h
      · split at h
        · cases h
          exact .addDelivered ‹_› ‹_›
        · cases h
      · cases h
  | markCompleted i =>
      simp only [nextGateway] at h
      split at h
      · cases h
        exact .markCompleted ‹_›
      · cases h
  | dropLifecycle i =>
      simp only [nextGateway] at h
      split at h
      · cases h
        exact .dropLifecycle ‹_›
      · cases h
  | setStall stalled =>
      cases h
      exact .setStall
  | reapCadence unix ttl =>
      cases h
      exact .reapCadence
  | sched own =>
      simp only [nextGateway] at h
      split at h
      · obtain ⟨next, step, same⟩ := Option.map_eq_some_iff.mp h
        cases same
        exact .sched ‹_› step
      · cases h

namespace Gateway

variable (cfg) (g : Gateway) (f : FlowId) (body : RequestBody) (unix : Nat) (isTurnBoundary : Bool)

/-- Of all that the scheduler holds, the heuristic writes one priority. -/
theorem classify_system :
    (g.classify f unix isTurnBoundary).system = g.system.modifyFlow f fun flow =>
      flow.setPriority (g.arrivalPriority f unix isTurnBoundary) flow.prioritySource := by
  have written := CadenceRegistry.classifyAndApply_flow
    (g.cadence.recordArrival f g.system.now unix isTurnBoundary).1 (g.system.flow f) f unix
  rw [CadenceRegistry.entry, CadenceRegistry.lookup_recordArrival] at written
  exact congrArg (fun flow => g.system.modifyFlow f fun _ => flow) written

theorem classify_priority :
    ((g.classify f unix isTurnBoundary).system.flow f).priority =
      g.arrivalPriority f unix isTurnBoundary := by
  rw [classify_system, System.flow_modifyFlow, if_pos rfl]
  rfl

theorem enterKvGate_system : (g.enterKvGate cfg f body).system = g.system := by
  unfold enterKvGate
  cases kvCheck cfg g.system.snapshots g.delayedCount (g.isInteractive cfg f) <;> rfl

theorem request_system :
    (g.request cfg f body unix isTurnBoundary).system = g.system.modifyFlow f fun flow =>
      flow.setPriority (g.arrivalPriority f unix isTurnBoundary) flow.prioritySource := by
  rw [request, enterKvGate_system, classify_system]

theorem request_lifecycle : (g.request cfg f body unix isTurnBoundary).lifecycle = g.lifecycle := by
  unfold request enterKvGate
  cases kvCheck cfg _ _ _ <;> rfl

theorem request_progress : (g.request cfg f body unix isTurnBoundary).progress = g.progress := by
  unfold request enterKvGate
  cases kvCheck cfg _ _ _ <;> rfl

theorem request_stalled : (g.request cfg f body unix isTurnBoundary).stalled = g.stalled := by
  unfold request enterKvGate
  cases kvCheck cfg _ _ _ <;> rfl

end Gateway

/-- The phase in which a call comes out of `KvPolicy::check`, or waits in it. -/
def KvGate.phase (now : Instant) : KvGate → CallPhase
  | .pass => .passed
  | .park => .delayed now
  | .reject retryAfter => .rejected retryAfter

namespace Gateway

variable (cfg) (g : Gateway) (f : FlowId) (body : RequestBody) (unix : Nat) (isTurnBoundary : Bool)

theorem kvCheck_classify :
    kvCheck cfg (g.classify f unix isTurnBoundary).system.snapshots
      (g.classify f unix isTurnBoundary).delayedCount
      ((g.classify f unix isTurnBoundary).isInteractive cfg f) =
        g.gateOf cfg f unix isTurnBoundary := by
  unfold isInteractive gateOf
  rw [classify_priority]
  rfl

theorem request_calls :
    (g.request cfg f body unix isTurnBoundary).calls = g.calls ++ [⟨f, extractMaxTokens body,
      (g.gateOf cfg f unix isTurnBoundary).phase g.system.now⟩] := by
  unfold request enterKvGate
  rw [kvCheck_classify]
  cases g.gateOf cfg f unix isTurnBoundary <;> rfl

theorem request_delayedCount :
    (g.request cfg f body unix isTurnBoundary).delayedCount =
      if g.gateOf cfg f unix isTurnBoundary = .park then g.delayedCount + 1 else g.delayedCount := by
  unfold request enterKvGate
  rw [kvCheck_classify]
  cases g.gateOf cfg f unix isTurnBoundary <;> rfl

end Gateway

theorem exec_touch (cfg : Config) (arith : I64Arith) (s : System) (f : FlowId) :
    ∃ us, (scheduler cfg arith).Exec s us (s.modifyFlow f id) ∧ Machine.events us = [] := by
  have step : (scheduler cfg arith).next s
      (.setPriority f (s.flow f).priority (s.flow f).prioritySource) =
        some (s.modifyFlow f id, none) := rfl
  exact ⟨_, .single step, rfl⟩

theorem exec_progress (cfg : Config) (arith : I64Arith) (g : Gateway) (f : FlowId)
    (progress : FlowProgressTracker) :
    ∃ us, (scheduler cfg arith).Exec g.system us (g.setProgress f progress).system ∧
      Machine.events us = [] := by
  have step : (scheduler cfg arith).next g.system (.deliver f (progress.deliveredFor f)) =
      some ((g.setProgress f progress).system, none) := rfl
  exact ⟨_, .single step, rfl⟩

theorem GatewayStep.view (step : GatewayStep cfg arith g action event g') :
    ∃ us, (scheduler cfg.toConfig arith).Exec g.system us g'.system ∧
      Machine.events us = event.toList := by
  cases step with
  | @request f body unix isTurnBoundary =>
      rw [Gateway.request_system]
      have step : (scheduler cfg.toConfig arith).next g.system
          (.setPriority f (g.arrivalPriority f unix isTurnBoundary) (g.system.flow f).prioritySource) =
            some (g.system.modifyFlow f fun flow =>
              flow.setPriority (g.arrivalPriority f unix isTurnBoundary) flow.prioritySource, none) := rfl
      exact ⟨_, .single step, rfl⟩
  | @refused c call found phase full => exact exec_touch cfg.toConfig arith g.system call.flowId
  | @admitInner c call found phase room =>
      have step : (scheduler cfg.toConfig arith).next g.system (.arrive call.flowId call.workUnit) =
          some (g.system.arrive call.flowId call.workUnit, none) := by
        simp only [scheduler, nextSystem, room, Bool.false_eq_true, if_false]
      exact ⟨_, .single step, rfl⟩
  | openGuard => exact exec_progress cfg.toConfig arith _ _ _
  | addDelivered => exact exec_progress cfg.toConfig arith _ _ _
  | @dropLifecycle i guard live =>
      obtain ⟨us, told, silent⟩ := exec_progress cfg.toConfig arith (g.setLifecycle i (.dropped guard))
        guard.flowId (g.progress.unregister arith guard.flowId guard.estimatedCost guard.deliveredTokens)
      have step : (scheduler cfg.toConfig arith).next (g.closeGuard arith i guard).system
          (.reportAccounting guard.flowId (guard.restoreCost arith)) = some (_, none) := rfl
      refine ⟨_, told.snoc step, ?_⟩
      rw [Machine.events_append, silent]
      rfl
  | sched own step => exact ⟨_, .single step, Machine.events_singleton _⟩
  | _ => exact ⟨[], .nil, rfl⟩

/-- A run of the gateway is, for the scheduler, a run with the same events. -/
theorem gateway_refines {ts} (run : (gateway cfg arith).Exec (Gateway.start cfg) ts g) :
    ∃ us, (scheduler cfg.toConfig arith).Exec (System.start cfg.toConfig) us g.system ∧
      Machine.events us = Machine.events ts := by
  apply run.project Gateway.system
  intro v a w e step
  exact (GatewayStep.of_next step).view

theorem Gateway.reachable (reach : (gateway cfg arith).Reachable g) :
    (scheduler cfg.toConfig arith).Reachable g.system := by
  apply reach.project Gateway.system rfl
  intro v a w e step
  exact (GatewayStep.of_next step).view

def CallPhase.isDelayed : CallPhase → Bool
  | .delayed _ => true
  | _ => false

/-- The ways of a call from one phase to the next. -/
inductive CallMove (g : Gateway) : CallPhase → CallPhase → Prop where
  | resumed (since : Instant) : CallMove g (.delayed since) .passed
  | timedOut (since : Instant) (retryAfter : ℚ) : CallMove g (.delayed since) (.rejected retryAfter)
  | disconnected (since : Instant) : CallMove g (.delayed since) .dropped
  | stalled (set : g.stalled = true) : CallMove g .passed (.rejected 5000000000)
  | cleared (unset : g.stalled = false) : CallMove g .passed .cleared
  | refused (retryAfter : ℚ) : CallMove g .cleared (.rejected retryAfter)
  | admitted (i : Nat) : CallMove g .cleared (.admitting i)

/-- What a step of the gateway does to the calls and to the delayed count. -/
inductive CallsChange (cfg : GatewayConfig) (g : Gateway) (action : GatewayAction) (g' : Gateway) :
    Prop where
  | arrived (f : FlowId) (body : RequestBody) (unix : Nat) (isTurnBoundary : Bool) (gate : KvGate)
      (which : action = .request f body unix isTurnBoundary)
      (decided : gate = g.gateOf cfg f unix isTurnBoundary)
      (calls : g'.calls = g.calls ++ [⟨f, extractMaxTokens body, gate.phase g.system.now⟩])
      (count : g'.delayedCount = if gate = .park then g.delayedCount + 1 else g.delayedCount)
  | moved (c : Nat) (call : Call) (phase : CallPhase) (found : g.calls[c]? = some call)
      (move : CallMove g call.phase phase) (calls : g'.calls = g.calls.set c { call with phase })
      (count : g'.delayedCount =
        if call.phase.isDelayed then g.delayedCount - 1 else g.delayedCount)
  | kept (calls : g'.calls = g.calls) (count : g'.delayedCount = g.delayedCount)

theorem GatewayStep.callsChange (step : GatewayStep cfg arith g action event g') :
    CallsChange cfg g action g' := by
  cases step with
  | @request f body unix isTurnBoundary =>
      exact .arrived f body unix isTurnBoundary _ rfl rfl
        (Gateway.request_calls cfg g f body unix isTurnBoundary)
        (Gateway.request_delayedCount cfg g f body unix isTurnBoundary)
  | @resume c call since found phase =>
      refine .moved c call .passed found ?_ rfl ?_
      · rw [phase]
        exact .resumed since
      · rw [phase]
        rfl
  | @delayTimeout c call since found phase =>
      refine .moved c call _ found ?_ rfl ?_
      · rw [phase]
        exact .timedOut since _
      · rw [phase]
        rfl
  | @disconnect c call since found phase =>
      refine .moved c call .dropped found ?_ rfl ?_
      · rw [phase]
        exact .disconnected since
      · rw [phase]
        rfl
  | @stallGate c call found phase =>
      refine .moved c call _ found ?_ rfl ?_
      · rw [phase]
        cases set : g.stalled with
        | true => exact .stalled set
        | false => exact .cleared set
      · rw [phase]
        rfl
  | @refused c call found phase =>
      refine .moved c call _ found ?_ rfl ?_
      · rw [phase]
        exact .refused _
      · rw [phase]
        rfl
  | @admitInner c call found phase =>
      refine .moved c call _ found ?_ rfl ?_
      · rw [phase]
        exact .admitted _
      · rw [phase]
        rfl
  | _ => exact .kept rfl rfl

end

end TinyLlb
