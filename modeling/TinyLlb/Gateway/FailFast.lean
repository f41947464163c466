import TinyLlb.Gateway.Calls
import TinyLlb.Runtime.QueueDepth

/-! # The bound of fail-fast mode

The fail-fast check compares the queue depth of the DRR scheduler with the
maximum. It does not see the requests parked in the KV-delay wait, nor those that
have passed the check and not made their guard yet. As long as all of these
together stay within the maximum whenever one more comes in, no request is
accepted behind more than that many others.
-/

namespace TinyLlb

namespace System

/-- Admissions that have passed the check and are not counted in any depth yet. -/
def uncounted (s : System) : Nat := s.admissions.countP fun a => decide (a.phase = .entered)

end System

namespace Gateway

/-- Calls parked in the KV-delay wait. -/
def delayedCalls (g : Gateway) : Nat := g.calls.countP fun call => call.phase.isDelayed

/-- All requests that wait: those with a live guard and the delayed ones. -/
def waiting (g : Gateway) : Nat := g.system.guardFlows.length + g.delayedCalls

/-- The action lets a request past the fail-fast check. -/
def letsIn (cfg : GatewayConfig) (g : Gateway) : GatewayAction → Bool
  | .admitInner c => (g.calls[c]?).any fun call => !g.system.rejects cfg.toConfig call.flowId
  | _ => false

/-- The action parks a request. -/
def parks (cfg : GatewayConfig) (g : Gateway) : GatewayAction → Bool
  | .request f _ unix isTurnBoundary => decide (g.gateOf cfg f unix isTurnBoundary = .park)
  | _ => false

end Gateway

/-- Depths that count the guards of each flow add up to all guards. -/
theorem FlowRegistry.sumDepths_eq {r : FlowRegistry} {flows : List FlowId}
    (counts : ∀ f, (r.getOrCreate f).depth.toNat = flows.count f) (few : flows.length < 4294967296) :
    r.sumDepths.toNat = flows.length := by
  have worth : ∀ f, Assoc.worth (fun _ flow => flow.depth.toNat) r.flows f = flows.count f := by
    intro f
    rw [← counts f]
    unfold Assoc.worth FlowRegistry.getOrCreate
    cases r.flows.lookup f <;> rfl
  have covers : ∀ f, f ∈ r.flows → f ∈ r.flows.keys.toFinset ∪ flows.toFinset := by
    intro f member
    exact Finset.mem_union_left _ (List.mem_toFinset.mpr member)
  have summed : Assoc.total (fun _ flow => flow.depth.toNat) r.flows = flows.length := by
    rw [Assoc.total_eq_sum _ covers, Finset.sum_congr rfl fun f _ => worth f,
      ← List.sum_toFinset_count_eq_length]
    symm
    apply Finset.sum_subset Finset.subset_union_right
    intro f _ absent
    exact List.count_eq_zero.mpr fun member => absent (List.mem_toFinset.mpr member)
  rw [FlowRegistry.sumDepths_eq_total, summed, UInt32.toNat_ofNat_of_lt' few]

section

variable {cfg : GatewayConfig} {arith : I64Arith} {g g' : Gateway} {action : GatewayAction}
  {event : Option Event}

theorem GuardsCounted.depth_eq_count {s : System} (counted : GuardsCounted s)
    (few : s.guardFlows.length < 4294967296) (f : FlowId) :
    (s.flow f).depth.toNat = s.guardFlows.count f :=
  counted.depth_toNat (lt_of_le_of_lt List.count_le_length few)

theorem GuardsCounted.sumDepths_eq {s : System} (counted : GuardsCounted s)
    (few : s.guardFlows.length < 4294967296) : s.registry.sumDepths.toNat = s.guardFlows.length :=
  FlowRegistry.sumDepths_eq (counted.depth_eq_count few) few

theorem GuardsCounted.room {s : System} {config : Config} (counted : GuardsCounted s)
    (few : s.guardFlows.length < 4294967296) (mode : config.backpressure.mode = .failFast)
    {f : FlowId} (room : s.rejects config f = false) :
    s.guardFlows.length ≤ config.backpressure.maxQueueDepth.toNat := by
  have touched : ∀ h, ((s.registry.modify f id).getOrCreate h).depth.toNat = s.guardFlows.count h := by
    intro h
    rw [← counted.depth_eq_count few h, FlowRegistry.getOrCreate_modify]
    split
    · subst h
      rfl
    · rfl
  rw [← FlowRegistry.sumDepths_eq touched few]
  simpa [System.rejects, mode, UInt32.le_iff_toNat_le] using room

theorem CallMove.not_delayed {p q : CallPhase} (move : CallMove g p q) : q.isDelayed = false := by
  cases move <;> rfl

theorem delayedCount_eq (reach : (gateway cfg arith).Reachable g) :
    g.delayedCount = UInt32.ofNat g.delayedCalls := by
  apply reach.invariant (I := fun g => g.delayedCount = UInt32.ofNat g.delayedCalls) rfl
  intro v a w e _ counted step
  unfold Gateway.delayedCalls at counted ⊢
  cases (GatewayStep.of_next step).callsChange with
  | arrived f body unix isTurnBoundary gate which decided calls count =>
      rw [calls, count, List.countP_append, List.countP_singleton, counted]
      cases gate with
      | pass | park | reject => simp [KvGate.phase, CallPhase.isDelayed]
  | moved c call phase found move calls count =>
      have changed := Slots.countP_set found { call with phase } fun call => call.phase.isDelayed
      rw [move.not_delayed] at changed
      rw [calls, count, counted]
      cases was : call.phase.isDelayed with
      | true =>
          rw [was] at changed
          simp only [if_true, Bool.false_eq_true, if_false, Nat.add_zero] at changed
          rw [← changed, UInt32.ofNat_add]
          exact UInt32.add_sub_cancel _ _
      | false =>
          rw [was] at changed
          simp only [Bool.false_eq_true, if_false, Nat.add_zero] at changed ⊢
          rw [changed]
  | kept calls count =>
      rw [calls, count, counted]

/-- Without a wrap `Scheduler::queue_depth` is the number of waiting requests. -/
theorem Gateway.queueDepth_eq_waiting (reach : (gateway cfg arith).Reachable g)
    (few : g.waiting < 4294967296) : g.queueDepth.toNat = g.waiting := by
  have counted := GuardsCounted.reachable (Gateway.reachable reach)
  unfold Gateway.waiting at few ⊢
  rw [Gateway.queueDepth, UInt32.toNat_add, counted.sumDepths_eq (by omega), delayedCount_eq reach,
    UInt32.toNat_ofNat_of_lt' (by change g.delayedCalls < 4294967296; omega), Nat.mod_eq_of_lt few]

theorem PhaseMove.entered {s : System} {i : Nat} {action : Action} {p q : Phase}
    (move : PhaseMove s i action p q) :
    q ≠ .entered ∧
      (p = .entered ∧ action = .createGuard i ∨ p ≠ .entered ∧ ∀ j, action ≠ .createGuard j) := by
  cases move with
  | createGuard => exact ⟨by simp, .inl ⟨rfl, rfl⟩⟩
  | closeEmpty which | closeFull which =>
      refine ⟨by simp, .inr ⟨by simp, ?_⟩⟩
      rintro j rfl
      simp at which
  | _ => exact ⟨by simp, .inr ⟨by simp, by simp⟩⟩

theorem Step.uncounted_cases {config : Config} {s s' : System} {action : Action}
    (step : Step config arith s action event s') :
    (∃ f workUnit, action = .arrive f workUnit) ∨
      (∃ i, action = .createGuard i ∧ s'.uncounted + 1 = s.uncounted) ∨
      ((∀ i, action ≠ .createGuard i) ∧ s'.uncounted = s.uncounted) := by
  cases step.tableChange with
  | arrived f workUnit which admissions => exact .inl ⟨f, workUnit, which⟩
  | moved i a phase found move admissions =>
      have changed := Slots.countP_set found { a with phase } fun a => decide (a.phase = .entered)
      rw [← admissions] at changed
      obtain ⟨after, counts | waits⟩ := move.entered
      · simp only [after, counts.1, decide_false, decide_true, Bool.false_eq_true, if_false,
          if_true] at changed
        exact .inr (.inl ⟨i, counts.2, changed⟩)
      · simp only [after, waits.1, decide_false, Bool.false_eq_true, if_false] at changed
        exact .inr (.inr ⟨waits.2, changed⟩)
  | kept other admissions =>
      refine .inr (.inr ⟨other, ?_⟩)
      rw [System.uncounted, admissions]
      rfl

theorem GatewayStep.delayed_cases (step : GatewayStep cfg arith g action event g') :
    (g.parks cfg action = true ∧ g'.delayedCalls = g.delayedCalls + 1) ∨
      g'.delayedCalls ≤ g.delayedCalls := by
  unfold Gateway.delayedCalls
  cases step.callsChange with
  | arrived f body unix isTurnBoundary gate which decided calls =>
      subst which
      rw [calls, List.countP_append, List.countP_singleton]
      cases gate with
      | park => exact .inl ⟨by simp [Gateway.parks, ← decided], rfl⟩
      | pass | reject => exact .inr le_rfl
  | moved c call phase found move calls =>
      right
      have changed := Slots.countP_set found { call with phase } fun call => call.phase.isDelayed
      rw [move.not_delayed] at changed
      simp only [Bool.false_eq_true, if_false] at changed
      rw [calls]
      omega
  | kept calls =>
      right
      rw [calls]

theorem GatewayStep.queued_cases (reach : (gateway cfg arith).Reachable g)
    (step : GatewayStep cfg arith g action event g') :
    (g.letsIn cfg action = true ∧ (∃ f, g.system.rejects cfg.toConfig f = false) ∧
        g'.system.uncounted = g.system.uncounted + 1 ∧
        g'.system.guardFlows.length = g.system.guardFlows.length) ∨
      (∃ i, action = .sched (.createGuard i) ∧ g'.system.uncounted + 1 = g.system.uncounted ∧
        g'.system.guardFlows.length = g.system.guardFlows.length + 1) ∨
      ((∀ i, action ≠ .sched (.createGuard i)) ∧ g'.system.uncounted = g.system.uncounted ∧
        g'.system.guardFlows.length ≤ g.system.guardFlows.length) := by
  cases step with
  | @admitInner c call found phase room =>
      left
      refine ⟨by simp [Gateway.letsIn, found, room], ⟨call.flowId, room⟩, ?_, ?_⟩
      · change (g.system.admissions ++ [_]).countP _ = _
        rw [List.countP_append]
        rfl
      · change ((g.system.admissions ++ [_]).filterMap _).length = _
        rw [List.filterMap_append]
        exact congrArg List.length (List.append_nil _)
  | @request f body unix isTurnBoundary =>
      rw [Gateway.request_system]
      exact .inr (.inr ⟨by simp, rfl, le_rfl⟩)
  | @sched action event s' own step =>
      have move := (SystemInv.reachable (Gateway.reachable reach)).step_of_next step
      rcases move.uncounted_cases with ⟨f, workUnit, rfl⟩ | ⟨i, rfl, fewer⟩ | ⟨other, same⟩
      · simp [Gateway.leavesToScheduler] at own
      · refine .inr (.inl ⟨i, rfl, fewer, ?_⟩)
        cases move.guardChange with
        | opened j f _ _ _ _ _ flows => exact flows.length_eq
        | closed j f which => simp [Action.closes?] at which
        | kept opens => simp [Action.opens?] at opens
      · refine .inr (.inr ⟨?_, same, ?_⟩)
        · intro i which
          cases which
          exact other i rfl
        · cases move.guardChange with
          | opened j f which =>
              cases action with
              | createGuard i => exact absurd rfl (other i)
              | _ => simp [Action.opens?] at which
          | closed j f _ _ _ _ _ flows =>
              have length := flows.length_eq
              simp only [List.length_cons] at length
              change s'.guardFlows.length ≤ _
              omega
          | kept _ _ _ flows => exact le_of_eq (congrArg List.length flows)
  | _ => exact .inr (.inr ⟨by simp, rfl, le_rfl⟩)

/-- Where the check misses somebody who waits or is about to, all of them are
    within the maximum; and the sum of the depths has not wrapped. -/
structure WithinMaximum (cfg : GatewayConfig) (tr : Transition Gateway GatewayAction Event) : Prop where
  letIn : tr.pre.letsIn cfg tr.action = true → 0 < tr.pre.delayedCalls + tr.pre.system.uncounted →
    tr.pre.waiting + tr.pre.system.uncounted ≤ cfg.backpressure.maxQueueDepth.toNat
  parked : tr.pre.parks cfg tr.action = true → 0 < tr.pre.system.uncounted →
    tr.pre.waiting + tr.pre.system.uncounted ≤ cfg.backpressure.maxQueueDepth.toNat
  fewGuards : tr.pre.system.guardFlows.length < 4294967296

/-- Whoever is past the check finds no more than the maximum, also if all others
    who are past it come first. -/
def Roomy (cfg : GatewayConfig) (g : Gateway) : Prop :=
  0 < g.system.uncounted → g.waiting + g.system.uncounted ≤ cfg.backpressure.maxQueueDepth.toNat + 1

theorem Roomy.next (roomy : Roomy cfg g) (mode : cfg.backpressure.mode = .failFast)
    (reach : (gateway cfg arith).Reachable g) (step : GatewayStep cfg arith g action event g')
    (within : WithinMaximum cfg ⟨g, action, event, g'⟩) : Roomy cfg g' := by
  have counted := GuardsCounted.reachable (Gateway.reachable reach)
  unfold Roomy at roomy ⊢
  have letIn := within.letIn
  have parked := within.parked
  unfold Gateway.waiting at *
  rcases step.queued_cases reach with
    ⟨lets, ⟨f, room⟩, more, same⟩ | ⟨i, rfl, fewer, more⟩ | ⟨-, same, fewer⟩
  · have seen := counted.room within.fewGuards mode room
    have bound := letIn lets
    rcases step.delayed_cases with ⟨parks, -⟩ | delayed
    · -- a request that is parked has not come to the check
      cases action with
      | admitInner => simp [Gateway.parks] at parks
      | _ => simp [Gateway.letsIn] at lets
    · simp only at bound
      change g.system.guardFlows.length ≤ cfg.backpressure.maxQueueDepth.toNat at seen
      omega
  · rcases step.delayed_cases with ⟨parks, -⟩ | delayed
    · simp [Gateway.parks] at parks
    · omega
  · rcases step.delayed_cases with ⟨parks, delayed⟩ | delayed
    · have bound := parked parks
      simp only at bound
      omega
    · omega

theorem Roomy.of_run (mode : cfg.backpressure.mode = .failFast) {ts}
    (run : (gateway cfg arith).Exec (Gateway.start cfg) ts g)
    (within : ∀ tr ∈ ts, WithinMaximum cfg tr) : Roomy cfg g := by
  induction run with
  | nil =>
      intro positive
      exact absurd positive (Nat.lt_irrefl 0)
  | snoc before step ih =>
      have held := ih fun tr member => within tr (List.mem_append_left _ member)
      have now := within _ (List.mem_append_right _ (List.mem_singleton_self _))
      exact held.next mode ⟨_, before⟩ (GatewayStep.of_next step) now

end

/-- In fail-fast mode, in every run within the maximum, a request is accepted
    into the queue behind at most `max_queue_depth` others, delayed ones included. -/
theorem fail_fast_bound (cfg : GatewayConfig) (arith : I64Arith)
    (mode : cfg.backpressure.mode = .failFast) {ts g}
    (run : (gateway cfg arith).Exec (Gateway.start cfg) ts g)
    (within : ∀ tr ∈ ts, WithinMaximum cfg tr) :
    ∀ tr ∈ ts, ∀ i, tr.action = .sched (.createGuard i) →
      tr.pre.queueDepth.toNat = tr.pre.waiting ∧
        tr.pre.waiting ≤ cfg.backpressure.maxQueueDepth.toNat := by
  intro tr member i accepts
  have step := GatewayStep.of_next (run.step_of_mem member)
  obtain ⟨before, after, rfl, first, -⟩ := run.split_of_mem member
  have reach : (gateway cfg arith).Reachable tr.pre := ⟨_, first⟩
  have roomy : Roomy cfg tr.pre :=
    Roomy.of_run mode first fun tr member => within tr (List.mem_append_left _ member)
  have bounded : tr.pre.waiting ≤ cfg.backpressure.maxQueueDepth.toNat := by
    rcases step.queued_cases reach with ⟨lets, -⟩ | ⟨-, -, fewer, -⟩ | ⟨other, -⟩
    · simp [accepts, Gateway.letsIn] at lets
    · have bound := roomy (by omega)
      omega
    · exact absurd accepts (other i)
  refine ⟨Gateway.queueDepth_eq_waiting reach ?_, bounded⟩
  exact bounded.trans_lt cfg.backpressure.maxQueueDepth.toNat_lt

/-- Fail-fast mode with room for one, and the KV policy switched on. -/
def GatewayConfig.failFastOne : GatewayConfig :=
  { GatewayConfig.withKvPolicy with
    backpressure :=
      { GatewayConfig.withKvPolicy.backpressure with mode := .failFast, maxQueueDepth := 1 } }

/-- A second request is accepted behind the one that waits. -/
theorem fail_fast_bound_second :
    let m := gateway .failFastOne .wrapping
    let actions := [.sched (.setPriority ⟨"a"⟩ 50 1), .request ⟨"a"⟩ (.json none) 0 true,
      .stallGate 0, .admitInner 0, .sched (.createGuard 0), .request ⟨"b"⟩ (.json none) 0 true,
      .stallGate 1, .admitInner 1, .sched (.createGuard 1)]
    (m.trace actions).length = 9 ∧
      ∀ tr ∈ m.trace actions, ∀ i, tr.action = .sched (.createGuard i) →
        tr.pre.queueDepth.toNat = tr.pre.waiting ∧ tr.pre.waiting ≤ 1 := by
  intro m actions
  refine ⟨by decide +kernel, ?_⟩
  apply fail_fast_bound .failFastOne .wrapping rfl (m.exec_after actions)
  intro tr member
  have alone : ∀ tr ∈ m.trace actions, tr.pre.delayedCalls + tr.pre.system.uncounted = 0 ∨
      tr.pre.letsIn .failFastOne tr.action = false ∧ tr.pre.parks .failFastOne tr.action = false := by
    decide +kernel
  have few : ∀ tr ∈ m.trace actions, tr.pre.system.guardFlows.length < 4294967296 := by
    decide +kernel
  refine ⟨?_, ?_, few tr member⟩
  · intro lets somebody
    rcases alone tr member with nobody | ⟨closed, -⟩
    · omega
    · simp [closed] at lets
  · intro parks somebody
    rcases alone tr member with nobody | ⟨-, quiet⟩
    · omega
    · simp [quiet] at parks

/-- Two requests of a flow pinned to the agent class are parked at a high usage; one
    of a new flow bypasses the KV gate and is accepted behind both. -/
theorem fail_fast_overlooks_delayed :
    let m := gateway .failFastOne .wrapping
    let actions := [.sched (.setPriority ⟨"a"⟩ 50 1), .sched (.publish (9 / 10)),
      .request ⟨"a"⟩ (.json none) 0 true, .request ⟨"a"⟩ (.json none) 0 true,
      .request ⟨"b"⟩ (.json none) 0 true, .stallGate 2, .admitInner 2, .sched (.createGuard 0)]
    m.Exec m.start (m.trace actions) (m.after actions) ∧
      ∃ tr ∈ m.trace actions, tr.action = .sched (.createGuard 0) ∧ tr.pre.waiting = 2 ∧
        tr.pre.queueDepth = 2 ∧
        ¬ tr.pre.waiting ≤ GatewayConfig.failFastOne.backpressure.maxQueueDepth.toNat := by
  intro m actions
  exact ⟨m.exec_after actions, by decide +kernel⟩

end TinyLlb
