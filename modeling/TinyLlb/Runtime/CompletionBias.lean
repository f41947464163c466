import TinyLlb.Gateway.Lifecycle
import TinyLlb.Runtime.Permits

/-! # The completion-bias gate

Between the guard and the push of its request an admission passes the gate. While
enough flows are active, a request of a flow that is not among them waits there
in a loop. The gate reads the `enqueued_at` cell of the flow to find out whether
the request has waited too long, but a request writes that cell only after it has
left the gate. So what the gate sees is what other requests of the flow have left
in the cell.

The gated scheduler is the scheduler with this gate: each of its steps is a step
of the scheduler or of one pass through the gate. A waiting request can be woken at
any time, since any dropped ticket wakes it.
-/

namespace TinyLlb

structure CompletionBias where
  enabled : Bool
  /-- 0 stands for `max_active_flows`. -/
  targetActiveFlows : UInt32
  predictiveAdmit : Bool

def CompletionBias.default : CompletionBias :=
  { enabled := true, targetActiveFlows := 0, predictiveAdmit := false }

structure CompletionBiasGate where
  enabled : Bool
  targetActiveFlows : UInt32
  predictiveAdmit : Bool
  starvationCheckInterval : Duration
  starvationTimeout : Duration

namespace CompletionBiasGate

def new (bias : CompletionBias) (maxActiveFlows : UInt32) (starvationTimeout : Duration) :
    CompletionBiasGate :=
  { enabled := bias.enabled
    targetActiveFlows := if bias.targetActiveFlows = 0 then maxActiveFlows else bias.targetActiveFlows
    predictiveAdmit := bias.predictiveAdmit
    starvationCheckInterval := starvationTimeout / 4
    starvationTimeout }

def predictiveAdmitThreshold : ℚ := 9 / 10

end CompletionBiasGate

/-- Some tracked flow has delivered the given share of its estimate. -/
def FlowProgressTracker.anyFlowNearDone (tracker : FlowProgressTracker) (threshold : ℚ) : Bool :=
  tracker.entries.any fun entry =>
    decide (entry.2.estimated > 0) &&
      decide ((entry.2.delivered : ℚ) / (entry.2.estimated : ℚ) ≥ threshold)

/-- Where the call of `check` by one admission stands. -/
inductive GatePc where
  | outside
  /-- At the top of the loop, in `check` since the given time. -/
  | looping (since : Instant)
  /-- At the await of the loop, which ends at the deadline if nothing ends it before. -/
  | waiting (since deadline : Instant)
  | passed
  deriving DecidableEq

structure Gated where
  system : System
  progress : FlowProgressTracker
  gates : Nat → GatePc

/-- A write to the progress tracker. -/
inductive ProgressWrite where
  | register (flowId : FlowId) (estimated : Int)
  | updateDelivered (flowId : FlowId) (delta : Int)
  | unregister (flowId : FlowId) (estimated delivered : Int)
  deriving DecidableEq

namespace ProgressWrite

def flowId : ProgressWrite → FlowId
  | register f _ => f
  | updateDelivered f _ => f
  | unregister f _ _ => f

def apply (arith : I64Arith) (tracker : FlowProgressTracker) : ProgressWrite → FlowProgressTracker
  | register f estimated => tracker.register arith f estimated
  | updateDelivered f delta => tracker.updateDelivered arith f delta
  | unregister f estimated delivered => tracker.unregister arith f estimated delivered

end ProgressWrite

inductive GatedAction where
  | base (action : Action)
  | track (write : ProgressWrite)
  /-- `check` up to its loop. -/
  | check (i : Nat)
  /-- One pass of the loop up to its await. -/
  | iterate (i : Nat)
  /-- The await ends, with a notification or at its deadline. -/
  | resume (i : Nat) (notified : Bool)
  /-- Hybrid mode stops waiting for the gate. -/
  | giveUp (i : Nat)
  deriving DecidableEq

namespace Gated

variable (gate : CompletionBiasGate) (g : Gated)

/-- `active_flows.get() as u32`. -/
def activeFlows : Nat := min g.system.activeFlows.toNat 4294967295

def underTarget : Bool := decide (g.activeFlows < gate.targetActiveFlows.toNat)

def predicted : Bool :=
  gate.predictiveAdmit && g.progress.anyFlowNearDone CompletionBiasGate.predictiveAdmitThreshold

/-- The returns of `check` before its loop. -/
def passesAtOnce (f : FlowId) : Bool :=
  !gate.enabled || decide ((g.system.flow f).active > 0) || gate.targetActiveFlows == 0 ||
    g.underTarget gate || g.predicted gate

def maybeForceAdmit (f : FlowId) : Bool :=
  (isStarved (g.system.flow f) g.system.now gate.starvationTimeout).isSome

def setGate (i : Nat) (pc : GatePc) : Gated := { g with gates := Function.update g.gates i pc }

def check (i : Nat) (f : FlowId) : Gated :=
  g.setGate i (if g.passesAtOnce gate f then .passed else .looping g.system.now)

def iterate (i : Nat) (f : FlowId) (since : Instant) : Gated :=
  g.setGate i
    (if g.maybeForceAdmit gate f then .passed
    else if g.predicted gate then .passed
    else .waiting since (g.system.now + gate.starvationCheckInterval))

def resume (i : Nat) (since : Instant) : Gated :=
  g.setGate i (if g.underTarget gate then .passed else .looping since)

/-- A request is pushed once it is through the gate, and an admission at the gate
    is cancelled only at its await. The tracker is written by its own actions. -/
def enabled : Action → Bool
  | .enqueue i => g.gates i == .passed
  | .cancel i =>
      match g.gates i with
      | .waiting _ _ => true
      | _ => g.system.admissions[i]?.all fun a => a.phase != .atGate
  | .deliver _ _ => false
  | _ => true

/-- The kv-bias scores read the delivered tokens of the same tracker. -/
def track (arith : I64Arith) (write : ProgressWrite) : Gated :=
  let progress := write.apply arith g.progress
  { g with
    progress
    system := { g.system with
      delivered := Function.update g.system.delivered write.flowId
        (progress.deliveredFor write.flowId) } }

end Gated

def nextGated (cfg : Config) (bias : CompletionBias) (arith : I64Arith) (g : Gated) :
    GatedAction → Option (Gated × Option Event)
  | .base action =>
      if g.enabled action then
        (nextSystem cfg arith g.system action).map fun next => ({ g with system := next.1 }, next.2)
      else none
  | .track write => some (g.track arith write, none)
  | .check i => do
      let a ← g.system.admissions[i]?
      match a.phase, g.gates i with
      | .atGate, .outside => some (g.check (gateOf cfg bias) i a.flowId, none)
      | _, _ => none
  | .iterate i => do
      let a ← g.system.admissions[i]?
      match a.phase, g.gates i with
      | .atGate, .looping since => some (g.iterate (gateOf cfg bias) i a.flowId since, none)
      | _, _ => none
  | .resume i notified => do
      let a ← g.system.admissions[i]?
      match a.phase, g.gates i with
      | .atGate, .waiting since deadline =>
          if notified = true ∨ deadline ≤ g.system.now then
            some (g.resume (gateOf cfg bias) i since, none)
          else none
      | _, _ => none
  | .giveUp i => do
      let a ← g.system.admissions[i]?
      match a.phase, g.gates i with
      | .atGate, .waiting since _ =>
          if cfg.backpressure.mode = .hybrid ∧ since + cfg.backpressure.maxWait ≤ g.system.now then
            some (g.setGate i .passed, none)
          else none
      | _, _ => none
where
  gateOf (cfg : Config) (bias : CompletionBias) : CompletionBiasGate :=
    .new bias cfg.scheduler.maxActiveFlows cfg.scheduler.starvationTimeout

def gatedScheduler (cfg : Config) (bias : CompletionBias) (arith : I64Arith) :
    Machine Gated GatedAction Event :=
  { start := ⟨System.start cfg, ∅, fun _ => .outside⟩, next := nextGated cfg bias arith }

/-- What a step of the scheduler writes to the `enqueued_at` cell of `f`, if it
    writes it: an admission stamps it after its push, its guard clears it when
    dropped, and a selection of the flow clears it. -/
def stampWrite (f : FlowId) (s : System) (event : Option Event) : Action → Option (Option Instant)
  | .stamp i => s.admissions[i]?.bind fun a => if a.flowId = f then some (some a.enter) else none
  | .dropGuard i => s.admissions[i]?.bind fun a => if a.flowId = f then some none else none
  | .trySelect =>
      match event with
      | some (.selected selection _) => if selection.flowId = f then some none else none
      | _ => none
  | _ => none

section

variable {cfg : Config} {arith : I64Arith} {s s' : System} {action : Action} {event : Option Event}

theorem System.enqueuedAt_set (s : System) (f g : FlowId) (at_ : Option Instant) :
    ((s.modifyFlow f fun flow => flow.setEnqueuedAt at_).flow g).enqueuedAt =
      if g = f then at_ else (s.flow g).enqueuedAt := by
  rw [System.flow_modifyFlow]
  split <;> rfl

theorem Step.enqueuedAt_eq (step : Step cfg arith s action event s') (f : FlowId) :
    (s'.flow f).enqueuedAt = (stampWrite f s event action).getD (s.flow f).enqueuedAt := by
  have kept : ∀ (t : System) (g : FlowId) (write : Flow → Flow),
      (∀ flow, (write flow).enqueuedAt = flow.enqueuedAt) →
        ((t.modifyFlow g write).flow f).enqueuedAt = (t.flow f).enqueuedAt :=
    fun t g write keeps => System.field_modifyFlow Flow.enqueuedAt write keeps t g f
  cases step with
  | rejected => exact kept s _ id fun _ => rfl
  | arrive => exact kept s _ id fun _ => rfl
  | @createGuard i a => exact kept (s.setPhase i a .atGate) _ Flow.incDepth fun _ => rfl
  | @stamp i a pendingId slot found phase =>
      have written := System.enqueuedAt_set (s.setPhase i a (.inQueue pendingId .stamped slot))
        a.flowId f (some a.enter)
      refine written.trans ?_
      by_cases same : f = a.flowId
      · simp [stampWrite, found, same]
      · simp [stampWrite, found, same, Ne.symm same, System.setPhase, System.flow]
  | @receive i a _ _ ticket =>
      have up := kept ((s.setPhase i a (.admitted ticket)).releaseGuard a.flowId) a.flowId
        Flow.incActive fun _ => rfl
      have released := kept (s.setPhase i a (.admitted ticket)) a.flowId Flow.decDepth fun _ => rfl
      exact up.trans released
  | closeReceiver which =>
      have silent : stampWrite f s none action = none := by
        rcases which with rfl | rfl <;> rfl
      rw [silent, Option.getD_none]
      unfold System.closeReceiver
      split
      · exact kept s _ Flow.decActive fun _ => rfl
      · rfl
  | @dropGuard i a pendingId found phase =>
      have cleared := System.enqueuedAt_set ((s.setPhase i a .finished).releaseGuard a.flowId)
        a.flowId f none
      have released := kept (s.setPhase i a .finished) a.flowId Flow.decDepth fun _ => rfl
      refine cleared.trans ?_
      by_cases same : f = a.flowId
      · simp [stampWrite, found, same]
      · have silent : ∀ event, stampWrite f s event (.dropGuard i) = none := by
          simp [stampWrite, found, Ne.symm same]
        rw [if_neg same, silent]
        exact released
  | dropTicket => exact kept s _ Flow.decActive fun _ => rfl
  | round pc spec =>
      change ((Round.registry _).getOrCreate f).enqueuedAt = _
      cases spec with
      | atCap | nobody | barren => rfl
      | @forced g | @regular g =>
          rw [TrySelect.debit, FlowRegistry.getOrCreate_modify]
          by_cases same : f = g
          · simp [stampWrite, same]
          · simp [stampWrite, same, Ne.symm same, System.flow]
  | register => exact kept _ _ _ fun _ => rfl
  | setPriority => exact kept s _ _ fun _ => rfl
  | @reportAccounting g restoreCost =>
      exact kept s g (fun flow => { flow with credit := arith.store (flow.credit + restoreCost) })
        fun _ => rfl
  | _ => rfl

end

section

variable {cfg : Config} {bias : CompletionBias} {arith : I64Arith} {g g' : Gated}
  {action : GatedAction} {event : Option Event}

theorem system_of_nextGated (step : nextGated cfg bias arith g action = some (g', event)) :
    (∃ a, action = .base a ∧ nextSystem cfg arith g.system a = some (g'.system, event)) ∨
      ((∀ a, action ≠ .base a) ∧ event = none ∧
        ∃ delivered, g'.system = { g.system with delivered }) := by
  cases action with
  | base a =>
      simp only [nextGated] at step
      split at step
      · obtain ⟨⟨t, e⟩, next, same⟩ := Option.map_eq_some_iff.mp step
        cases same
        exact .inl ⟨a, rfl, next⟩
      · cases step
  | track write =>
      cases step
      exact .inr ⟨fun _ => GatedAction.noConfusion, rfl, _, rfl⟩
  | check i | iterate i =>
      obtain ⟨a, found, step⟩ := Option.bind_eq_some_iff.mp step
      split at step
      · cases step
        exact .inr ⟨fun _ => GatedAction.noConfusion, rfl, _, rfl⟩
      · cases step
  | resume i notified | giveUp i =>
      obtain ⟨a, found, step⟩ := Option.bind_eq_some_iff.mp step
      split at step
      · split at step
        · cases step
          exact .inr ⟨fun _ => GatedAction.noConfusion, rfl, _, rfl⟩
        · cases step
      · cases step

/-- Behind the gate a run of the scheduler takes place, up to the delivered tokens
    that the tracker counts. -/
theorem systemInv_of_gated (reach : (gatedScheduler cfg bias arith).Reachable g) :
    SystemInv cfg g.system := by
  refine reach.invariant (I := fun g => SystemInv cfg g.system) (SystemInv.start cfg) ?_
  intro v a w e _ inv step
  rcases system_of_nextGated step with ⟨action, rfl, next⟩ | ⟨-, rfl, delivered, after⟩
  · exact inv.next (inv.step_of_next next)
  · rw [after]
    exact ⟨inv.repInv, inv.budget, inv.conserved, inv.caps, inv.running⟩

/-- What a step of the gated scheduler writes to the `enqueued_at` cell of `f`. -/
def stampOf (f : FlowId) (tr : Transition Gated GatedAction Event) : Option (Option Instant) :=
  match tr.action with
  | .base a => stampWrite f tr.pre.system tr.event a
  | _ => none

/-- The latest write to the cell in a run: the time at which the request that made
    it arrived, or nothing where the cell was cleared or never written. -/
def latestStamp (f : FlowId) (ts : List (Transition Gated GatedAction Event)) : Option Instant :=
  (ts.filterMap (stampOf f)).getLast?.getD none

theorem latestStamp_snoc (f : FlowId) (ts : List (Transition Gated GatedAction Event))
    (tr : Transition Gated GatedAction Event) :
    latestStamp f (ts ++ [tr]) = (stampOf f tr).getD (latestStamp f ts) := by
  unfold latestStamp
  rw [List.filterMap_append]
  cases written : stampOf f tr with
  | none => simp [written]
  | some value => simp [written]

theorem enqueuedAt_eq_latestStamp {ts}
    (run : (gatedScheduler cfg bias arith).Exec (gatedScheduler cfg bias arith).start ts g)
    (f : FlowId) : (g.system.flow f).enqueuedAt = latestStamp f ts := by
  induction run with
  | nil => rfl
  | @snoc ts v a w e whole step ih =>
      have inv := systemInv_of_gated ⟨ts, whole⟩
      rw [latestStamp_snoc, ← ih]
      rcases system_of_nextGated step with ⟨action, rfl, next⟩ | ⟨gateStep, rfl, delivered, after⟩
      · exact (inv.step_of_next next).enqueuedAt_eq f
      · have silent : stampOf f ⟨v, a, none, w⟩ = none := by
          cases a with
          | base action => exact absurd rfl (gateStep action)
          | _ => rfl
        rw [silent, Option.getD_none, after]
        rfl

end

/-- The transition is an iteration of the loop by request `i` of flow `f`, which has
    been at the gate for longer than the timeout. -/
structure OverdueIteration (cfg : Config) (tr : Transition Gated GatedAction Event) (i : Nat)
    (f : FlowId) : Prop where
  action : tr.action = .iterate i
  flow : (tr.pre.system.admissions[i]?).map Admission.flowId = some f
  overdue : ∃ since, tr.pre.gates i = .looping since ∧
    cfg.scheduler.starvationTimeout < tr.pre.system.now.durationSince since

/-- Some other request of the flow has written the cell, arrived longer ago than
    the timeout, and nothing has written or cleared the cell since. -/
def OldStamp (cfg : Config) (before : List (Transition Gated GatedAction Event))
    (now : Instant) (f : FlowId) : Prop :=
  ∃ enter, latestStamp f before = some enter ∧
    cfg.scheduler.starvationTimeout < now.durationSince enter

theorem isStarved_isSome_iff {flow : Flow} {now : Instant} {timeout : Duration} :
    (isStarved flow now timeout).isSome = true ↔
      ∃ queuedAt, flow.enqueuedAt = some queuedAt ∧ timeout < now.durationSince queuedAt := by
  unfold isStarved
  cases flow.enqueuedAt with
  | none => simp
  | some queuedAt =>
      by_cases late : now.durationSince queuedAt > timeout
      · simp [late]
      · simp [late]

theorem Gated.gates_setGate (g : Gated) (i : Nat) (pc : GatePc) : (g.setGate i pc).gates i = pc := by
  simp [Gated.setGate]

theorem iterate_passed_iff {cfg : Config} {bias : CompletionBias} {arith : I64Arith} {g g' : Gated}
    {i : Nat} {f : FlowId} {event : Option Event}
    (step : nextGated cfg bias arith g (.iterate i) = some (g', event))
    (flow : (g.system.admissions[i]?).map Admission.flowId = some f) :
    g'.gates i = .passed ↔
      (isStarved (g.system.flow f) g.system.now cfg.scheduler.starvationTimeout).isSome = true ∨
        (bias.predictiveAdmit = true ∧ g.progress.anyFlowNearDone (9 / 10) = true) := by
  obtain ⟨a, found, step⟩ := Option.bind_eq_some_iff.mp step
  obtain rfl : a.flowId = f := by simpa [found] using flow
  split at step
  · cases step
    rw [Gated.iterate, Gated.gates_setGate, ← Bool.and_eq_true]
    change (if (isStarved _ _ cfg.scheduler.starvationTimeout).isSome = true then GatePc.passed
      else if (bias.predictiveAdmit && g.progress.anyFlowNearDone (9 / 10)) = true then _ else _) = _ ↔ _
    split
    · rename_i starved
      simp [starved]
    · rename_i fresh
      split
      · rename_i near
        simp [near]
      · rename_i far
        simp [fresh, far]
  · cases step

/-- In every run an overdue request is let through at its next iteration exactly if
    the cell of its flow holds an old stamp, or an active flow is near done and the
    gate looks at that. -/
theorem starvation_escape_iff {cfg : Config} {bias : CompletionBias} {arith : I64Arith} {g : Gated}
    {ts} (run : (gatedScheduler cfg bias arith).Exec (gatedScheduler cfg bias arith).start ts g) :
    (∀ before tr after i f, ts = before ++ tr :: after → OverdueIteration cfg tr i f →
      tr.post.gates i = .passed) ↔
    ∀ before tr after i f, ts = before ++ tr :: after → OverdueIteration cfg tr i f →
      OldStamp cfg before tr.pre.system.now f ∨
        (bias.predictiveAdmit = true ∧ tr.pre.progress.anyFlowNearDone (9 / 10) = true) := by
  have each : ∀ before tr after i f, ts = before ++ tr :: after → OverdueIteration cfg tr i f →
      (tr.post.gates i = .passed ↔ OldStamp cfg before tr.pre.system.now f ∨
        (bias.predictiveAdmit = true ∧ tr.pre.progress.anyFlowNearDone (9 / 10) = true)) := by
    intro before tr after i f split iteration
    subst split
    obtain ⟨first, step, -⟩ := run.split_at
    rw [iteration.action] at step
    change nextGated cfg bias arith tr.pre (.iterate i) = _ at step
    rw [iterate_passed_iff step iteration.flow, isStarved_isSome_iff,
      enqueuedAt_eq_latestStamp first f]
    rfl
  constructor
  · intro passes before tr after i f split iteration
    exact (each before tr after i f split iteration).mp (passes before tr after i f split iteration)
  · intro stamped before tr after i f split iteration
    exact (each before tr after i f split iteration).mpr (stamped before tr after i f split iteration)

/-- With one permit, flow `a` is admitted and keeps its ticket. -/
def busyBackend : List GatedAction :=
  [.base (.arrive ⟨"a"⟩ (.fin 1)), .base (.createGuard 0), .check 0, .base (.enqueue 0),
    .base (.stamp 0), .base (.notify 0), .base .wakeNotified, .base .readCap, .base .readState,
    .base .trySelect, .base .send, .base (.receive 0)]

/-- One wait of request `i` until its deadline, and the iteration after it. -/
def waitOnce (i : Nat) : List GatedAction :=
  [.base (.tick (Duration.fromSecs 75)), .resume i false, .iterate i]

/-- The first request of `b` waits for 375 seconds, with a timeout of 300. -/
def firstRequestHeld : List GatedAction :=
  busyBackend ++ [.base (.arrive ⟨"b"⟩ (.fin 1)), .base (.createGuard 1), .check 1, .iterate 1] ++
    waitOnce 1 ++ waitOnce 1 ++ waitOnce 1 ++ waitOnce 1 ++ waitOnce 1

/-- A first request of `b` passes the gate before `a` counts as active. Its stamp
    lets the second one through after 375 seconds. -/
def secondRequestFreed : List GatedAction :=
  busyBackend.dropLast ++ [.base (.arrive ⟨"b"⟩ (.fin 1)), .base (.createGuard 1), .check 1,
    .base (.receive 0), .base (.enqueue 1), .base (.stamp 1), .base (.notify 1),
    .base (.arrive ⟨"b"⟩ (.fin 1)), .base (.createGuard 2), .check 2, .iterate 2] ++
    waitOnce 2 ++ waitOnce 2 ++ waitOnce 2 ++ waitOnce 2 ++ waitOnce 2

theorem starvation_escape_iff_second :
    let m := gatedScheduler .onePermit .default .exact
    let ts := m.trace secondRequestFreed
    ts.length = 37 ∧ (m.after secondRequestFreed).gates 2 = .passed ∧
      ((∀ before tr after i f, ts = before ++ tr :: after → OverdueIteration .onePermit tr i f →
        tr.post.gates i = .passed) ↔
      ∀ before tr after i f, ts = before ++ tr :: after → OverdueIteration .onePermit tr i f →
        OldStamp .onePermit before tr.pre.system.now f ∨
          (CompletionBias.default.predictiveAdmit = true ∧
            tr.pre.progress.anyFlowNearDone (9 / 10) = true)) := by
  intro m ts
  exact ⟨by decide +kernel, by decide +kernel,
    starvation_escape_iff (m.exec_after secondRequestFreed)⟩

theorem first_request_not_let_through :
    ∃ ts g, (gatedScheduler .onePermit .default .exact).Exec
        (gatedScheduler .onePermit .default .exact).start ts g ∧
      ∃ before tr after, ts = before ++ tr :: after ∧ OverdueIteration .onePermit tr 1 ⟨"b"⟩ ∧
        tr.post.gates 1 ≠ .passed := by
  let m := gatedScheduler .onePermit .default .exact
  have some_ : m.trace firstRequestHeld ≠ [] := by decide +kernel
  refine ⟨_, _, m.exec_after firstRequestHeld, (m.trace firstRequestHeld).dropLast,
    (m.trace firstRequestHeld).getLast some_, [], (List.dropLast_append_getLast some_).symm, ?_, ?_⟩
  · exact ⟨by decide +kernel +revert, by decide +kernel +revert, 0, by decide +kernel +revert,
      by decide +kernel +revert⟩
  · decide +kernel +revert

end TinyLlb
