import TinyLlb.Library.Unwinding
import TinyLlb.Runtime.System

/-! # Accounting and scheduling

`credit` is written next to the eligibility logic but never read by it. Two runs
of the scheduler that agree on everything except the credits and the calls of
`report_accounting` make the same selections in the same states.
-/

namespace TinyLlb

/-- Everything of a flow but its credit. -/
def Flow.uncredited (flow : Flow) : Flow := { flow with credit := 0 }

/-- Registries in which every flow is the same up to its credit. A flow that only
    one of them has is as `get_or_create` would make it. -/
structure FlowRegistry.Agree (r r' : FlowRegistry) : Prop where
  weight : r.defaultWeight = r'.defaultWeight
  priority : r.defaultPriority = r'.defaultPriority
  flows : ∀ f, (r.getOrCreate f).uncredited = (r'.getOrCreate f).uncredited

namespace FlowRegistry.Agree

variable {r r' : FlowRegistry}

theorem refl (r : FlowRegistry) : r.Agree r := ⟨rfl, rfl, fun _ => rfl⟩

theorem modify (agree : r.Agree r') (f : FlowId) (write : Flow → Flow)
    (blind : ∀ flow, (write (Flow.uncredited flow)).uncredited = (write flow).uncredited) :
    (r.modify f write).Agree (r'.modify f write) := by
  refine ⟨agree.weight, agree.priority, ?_⟩
  intro g
  rw [getOrCreate_modify, getOrCreate_modify]
  split
  · rw [← blind, agree.flows f, blind]
  · exact agree.flows g

theorem modify_credit (agree : r.Agree r') (f : FlowId) (write : Flow → Flow)
    (only : ∀ flow, (write flow).uncredited = flow.uncredited) : (r.modify f write).Agree r' := by
  refine ⟨agree.weight, agree.priority, ?_⟩
  intro g
  rw [getOrCreate_modify]
  split
  · subst g
    rw [only]
    exact agree.flows f
  · exact agree.flows g

theorem read (agree : r.Agree r') {β : Type} (field : Flow → β)
    (blind : ∀ flow, field (Flow.uncredited flow) = field flow) (f : FlowId) :
    field (r.getOrCreate f) = field (r'.getOrCreate f) := by
  rw [← blind (r.getOrCreate f), agree.flows f, blind]

theorem enqueuedAt (agree : r.Agree r') (f : FlowId) :
    (r.getOrCreate f).enqueuedAt = (r'.getOrCreate f).enqueuedAt :=
  agree.read Flow.enqueuedAt (fun _ => rfl) f

theorem truncWeight (agree : r.Agree r') (f : FlowId) :
    (r.getOrCreate f).truncWeight = (r'.getOrCreate f).truncWeight :=
  agree.read Flow.truncWeight (fun _ => rfl) f

theorem flowPriority (agree : r.Agree r') (f : FlowId) :
    (r.getOrCreate f).priority = (r'.getOrCreate f).priority :=
  agree.read Flow.priority (fun _ => rfl) f

theorem sumDepths (agree : r.Agree r') : r.sumDepths = r'.sumDepths := by
  have worth : ∀ (r : FlowRegistry) (f : FlowId),
      Assoc.worth (fun (_ : FlowId) (flow : Flow) => flow.depth.toNat) r.flows f =
        (r.getOrCreate f).depth.toNat := by
    intro r f
    unfold Assoc.worth getOrCreate
    cases r.flows.lookup f <;> rfl
  have same : Assoc.total (fun (_ : FlowId) (flow : Flow) => flow.depth.toNat) r.flows =
      Assoc.total (fun (_ : FlowId) (flow : Flow) => flow.depth.toNat) r'.flows := by
    apply Assoc.total_congr_worth
    intro f
    rw [worth, worth]
    exact agree.read (fun flow => flow.depth.toNat) (fun _ => rfl) f
  rw [sumDepths_eq_total, sumDepths_eq_total, same]

end FlowRegistry.Agree

/-- Two outcomes of `try_select` that differ in credits alone. -/
inductive Round.Agree : Except Panic Round → Except Panic Round → Prop where
  | error (panic : Panic) : Agree (.error panic) (.error panic)
  | ok (round : Round) {r' : FlowRegistry} (agree : round.registry.Agree r') :
      Agree (.ok round) (.ok { round with registry := r' })

namespace TrySelect

variable {env : SelectEnv} {r r' : FlowRegistry}

theorem firstStarved_agree (agree : r.Agree r') (s : DrrState) :
    firstStarved env r s = firstStarved env r' s := by
  simp only [firstStarved, isStarved, agree.enqueuedAt]

theorem accumulate_agree (agree : r.Agree r') (s : DrrState) :
    accumulate env r s = accumulate env r' s := by
  have step : accumulateStep env r s.waiting = accumulateStep env r' s.waiting := by
    funext acc entry
    simp only [accumulateStep, agree.truncWeight]
  simp only [accumulate, step]

theorem candidates_agree (agree : r.Agree r') (waiting : Waiting) (entries : List (FlowId × Nat)) :
    candidates env r waiting entries = candidates env r' waiting entries := by
  have step : candidate env r waiting = candidate env r' waiting := by
    funext entry
    simp only [candidate, agree.flowPriority]
  induction entries with
  | nil => rfl
  | cons entry rest ih => simp only [candidates, step, ih]

theorem debit_agree (agree : r.Agree r') (f : FlowId) (pending : Pending) :
    (debit env r f pending).Agree (debit env r' f pending) := by
  exact agree.modify _ _ fun _ => rfl

theorem grant_agree (agree : r.Agree r') (s : DrrState) (f : FlowId) (pending : Pending)
    (selection : Option Selection) (forceAdmit : Option (FlowId × Duration)) :
    Round.Agree
      (match grant env r s f pending with
        | .error panic => .error panic
        | .ok (state, registry) =>
            .ok { selection, creditAccumulated := true, forceAdmit, state, registry })
      (match grant env r' s f pending with
        | .error panic => .error panic
        | .ok (state, registry) =>
            .ok { selection, creditAccumulated := true, forceAdmit, state, registry }) := by
  simp only [grant]
  cases checkedSub s.availablePermits 1 with
  | error panic => exact .error panic
  | ok permits => exact .ok _ (debit_agree agree f pending)

theorem forceSelect_agree (agree : r.Agree r') (s : DrrState) (f : FlowId) (wait : Duration) :
    Round.Agree (forceSelect env r s f wait) (forceSelect env r' s f wait) := by
  unfold forceSelect
  cases popFront s.waiting f with
  | none => exact .error _
  | some popped => exact grant_agree agree _ f popped.1 _ _

theorem serveEligible_agree (agree : r.Agree r') (s : DrrState) (eligible : List (FlowId × Nat))
    (f : FlowId) :
    Round.Agree (serveEligible env r s eligible f) (serveEligible env r' s eligible f) := by
  unfold serveEligible
  split
  · cases popFront s.waiting f with
    | none => exact .error _
    | some popped => exact grant_agree agree _ f popped.1 _ _
  · exact .error _

theorem regularRound_agree (agree : r.Agree r') (s : DrrState) :
    Round.Agree (regularRound env r s) (regularRound env r' s) := by
  simp only [regularRound, accumulate_agree agree, candidates_agree agree]
  split
  · exact .ok _ agree
  · split
    · exact .error _
    · split
      · exact .error _
      · exact serveEligible_agree agree _ _ _

end TrySelect

theorem trySelect_agree (env : SelectEnv) {r r' : FlowRegistry} (agree : r.Agree r') (s : DrrState) :
    Round.Agree (trySelect env r s) (trySelect env r' s) := by
  simp only [trySelect, TrySelect.firstStarved_agree agree]
  split
  · exact .error _
  · split
    · exact .ok _ agree
    · split
      · exact .ok _ agree
      · split
        · exact TrySelect.forceSelect_agree agree s _ _
        · exact TrySelect.regularRound_agree agree s

/-- Systems that differ in the credits of their flows alone. -/
structure System.Agree (s s' : System) : Prop where
  registry : s.registry.Agree s'.registry
  rest : s' = { s with registry := s'.registry }

namespace Action

/-- Everything but `report_accounting`. -/
def isScheduling : Action → Bool
  | .reportAccounting _ _ => false
  | _ => true

end Action

namespace System

variable {cfg : Config} {arith : I64Arith} {s : System} {r' : FlowRegistry}

theorem rejects_agree (agree : s.registry.Agree r') (f : FlowId) :
    rejects cfg { s with registry := r' } f = s.rejects cfg f := by
  have depths := (agree.modify f id fun _ => rfl).sumDepths
  simp only [rejects, depths]

theorem closeReceiver_agree (agree : s.registry.Agree r') (i : Nat) (a : Admission) (id : Nat)
    (slot : Option Ticket) :
    (s.closeReceiver i a id slot).Agree (closeReceiver { s with registry := r' } i a id slot) := by
  cases slot with
  | none => exact ⟨agree, rfl⟩
  | some ticket => exact ⟨agree.modify ticket.flowId Flow.decActive fun _ => rfl, rfl⟩

end System

/-- The same action from both systems: disabled in both, or with the same event. -/
inductive Lockstep : Option (System × Option Event) → Option (System × Option Event) → Prop where
  | stuck : Lockstep none none
  | step {t t' : System} (event : Option Event) (agree : t.Agree t') :
      Lockstep (some (t, event)) (some (t', event))

theorem Lockstep.admission {found : Option Admission}
    {body body' : Admission → Option (System × Option Event)}
    (both : ∀ a, Lockstep (body a) (body' a)) : Lockstep (found.bind body) (found.bind body') := by
  cases found with
  | none => exact .stuck
  | some a => exact both a

open TinyLlb.System in
theorem lockstep_next (cfg : Config) (arith : I64Arith) {s : System} {r' : FlowRegistry}
    (agree : s.registry.Agree r') {action : Action} (scheduling : action.isScheduling = true) :
    Lockstep (nextSystem cfg arith s action)
      (nextSystem cfg arith { s with registry := r' } action) := by
  cases action with
  | arrive f workUnit =>
      have created : (s.registry.modify f id).Agree (r'.modify f id) := agree.modify _ _ fun _ => rfl
      simp only [nextSystem, rejects_agree agree]
      split
      · exact .step _ ⟨created, rfl⟩
      · exact .step _ ⟨created, rfl⟩
  | createGuard i =>
      refine Lockstep.admission fun a => ?_
      cases a.phase with
      | entered => exact .step _ ⟨agree.modify _ _ fun _ => rfl, rfl⟩
      | _ => exact .stuck
  | enqueue i =>
      refine Lockstep.admission fun a => ?_
      cases a.phase with
      | atGate => exact .step _ ⟨agree, rfl⟩
      | _ => exact .stuck
  | stamp i =>
      refine Lockstep.admission fun a => ?_
      cases a.phase with
      | inQueue id stage slot =>
          cases stage with
          | pushed =>
              exact .step _ ⟨agree.modify a.flowId (fun flow => flow.setEnqueuedAt (some a.enter))
                fun _ => rfl, rfl⟩
          | _ => exact .stuck
      | _ => exact .stuck
  | notify i =>
      refine Lockstep.admission fun a => ?_
      cases a.phase with
      | inQueue id stage slot =>
          cases stage with
          | stamped => exact .step _ ⟨agree, rfl⟩
          | _ => exact .stuck
      | _ => exact .stuck
  | receive i =>
      refine Lockstep.admission fun a => ?_
      cases a.phase with
      | inQueue id stage slot =>
          cases stage with
          | polling since =>
              cases slot with
              | none => exact .stuck
              | some ticket =>
                  exact .step _ ⟨(agree.modify a.flowId Flow.decDepth fun _ => rfl).modify a.flowId
                    Flow.incActive fun _ => rfl, rfl⟩
          | _ => exact .stuck
      | _ => exact .stuck
  | cancel i =>
      refine Lockstep.admission fun a => ?_
      cases a.phase with
      | atGate => exact .step _ ⟨agree, rfl⟩
      | inQueue id stage slot =>
          cases stage with
          | polling since => exact .step _ (closeReceiver_agree agree i a id slot)
          | _ => exact .stuck
      | _ => exact .stuck
  | timeout i =>
      refine Lockstep.admission fun a => ?_
      cases a.phase with
      | inQueue id stage slot =>
          cases stage with
          | polling since =>
              by_cases late : cfg.backpressure.mode = .hybrid ∧
                since + cfg.backpressure.maxWait ≤ s.now
              · simp only [if_pos late]
                exact .step _ (closeReceiver_agree agree i a id slot)
              · simp only [if_neg late]
                exact .stuck
          | _ => exact .stuck
      | _ => exact .stuck
  | dropGuard i =>
      refine Lockstep.admission fun a => ?_
      cases a.phase with
      | unwinding id =>
          exact .step _ ⟨(agree.modify a.flowId Flow.decDepth fun _ => rfl).modify a.flowId
            (fun flow => flow.setEnqueuedAt none) fun _ => rfl, rfl⟩
      | _ => exact .stuck
  | dropTicket i =>
      refine Lockstep.admission fun a => ?_
      cases a.phase with
      | admitted ticket =>
          exact .step _ ⟨agree.modify ticket.flowId Flow.decActive fun _ => rfl, rfl⟩
      | _ => exact .stuck
  | wake i =>
      refine Lockstep.admission fun a => ?_
      cases a.phase with
      | waking id => exact .step _ ⟨agree, rfl⟩
      | _ => exact .stuck
  | wakeNotified | wakeChanged | wakeClosed | readCap =>
      simp only [nextSystem]
      split
      · exact .step _ ⟨agree, rfl⟩
      · exact .stuck
  | readState =>
      simp only [nextSystem]
      split
      · split
        · exact .step _ ⟨agree, rfl⟩
        · split
          · exact .step _ ⟨agree, rfl⟩
          · exact .step _ ⟨agree, rfl⟩
      · exact .stuck
  | trySelect =>
      simp only [nextSystem]
      split
      · rename_i cap pc
        have env : selectEnv cfg arith { s with registry := r' } cap = s.selectEnv cfg arith cap := rfl
        rw [env]
        have rounds := trySelect_agree (s.selectEnv cfg arith cap) agree s.inner
        generalize trySelect (s.selectEnv cfg arith cap) s.registry s.inner = outcome at rounds ⊢
        generalize trySelect (s.selectEnv cfg arith cap) r' s.inner = outcome' at rounds ⊢
        cases rounds with
        | error panic => exact .step _ ⟨agree, rfl⟩
        | ok round after => exact .step _ ⟨after, rfl⟩
      · exact .stuck
  | send =>
      simp only [nextSystem]
      split
      · refine Lockstep.admission fun a => ?_
        cases a.phase with
        | inQueue id stage slot =>
            cases slot with
            | none => exact .step _ ⟨agree, rfl⟩
            | some ticket => exact .stuck
        | unwinding id => exact .step _ ⟨agree, rfl⟩
        | finished => exact .step _ ⟨agree, rfl⟩
        | _ => exact .stuck
      · exact .stuck
  | publish kvUsage =>
      simp only [nextSystem]
      split
      · exact .stuck
      · exact .step _ ⟨agree, rfl⟩
  | closeMonitor | tick | deliver => exact .step _ ⟨agree, rfl⟩
  | register reg =>
      simp only [nextSystem]
      split
      · exact .stuck
      · exact .step _ ⟨agree.modify reg.id (fun flow => { flow with
          weight := reg.weight, priority := reg.priority, prioritySource := 2 }) fun _ => rfl, rfl⟩
  | setPriority f priority source =>
      exact .step _ ⟨agree.modify f (fun flow => flow.setPriority priority source) fun _ => rfl, rfl⟩
  | reportAccounting f cost => cases scheduling

theorem unwinding_accounting (cfg : Config) (arith : I64Arith) :
    (scheduler cfg arith).Unwinding Action.isScheduling System.inner System.Agree where
  refl s := ⟨.refl s.registry, rfl⟩
  view_eq := by
    rintro s s' ⟨-, rest⟩
    rw [rest]
  lockstep := by
    intro s s' action t event agree scheduling step
    obtain ⟨agree, rest⟩ := agree
    generalize s'.registry = r' at agree rest
    subst s'
    have both := lockstep_next cfg arith agree scheduling
    change nextSystem cfg arith s action = some (t, event) at step
    rw [step] at both
    generalize other : nextSystem cfg arith { s with registry := r' } action = outcome at both
    cases both with
    | step _ agree => exact ⟨_, other, agree⟩
  hidden := by
    intro s s' action t event agree hidden step
    cases action with
    | reportAccounting f cost =>
        cases step
        exact ⟨rfl, agree.registry.modify_credit f
          (fun flow => { flow with credit := arith.store (flow.credit + cost) }) fun _ => rfl, agree.rest⟩
    | _ => cases hidden

/-- Accounting never influences scheduling. Two runs from states that agree up to
    the credits of the flows, with the same actions apart from the calls of
    `report_accounting` each makes, go through the same queues, deficits, cursors
    and permits with the same events, and so select the same requests. -/
theorem accounting_never_schedules {cfg : Config} {arith : I64Arith} {s s' t t' : System} {ts ts'}
    (agree : s.Agree s') (run : (scheduler cfg arith).Exec s ts t)
    (run' : (scheduler cfg arith).Exec s' ts' t')
    (same : (Machine.visibleSteps Action.isScheduling ts).map Transition.action =
      (Machine.visibleSteps Action.isScheduling ts').map Transition.action) :
    Machine.observe Action.isScheduling System.inner ts =
        Machine.observe Action.isScheduling System.inner ts' ∧
      Machine.events ts = Machine.events ts' ∧ t.inner = t'.inner ∧
        ∀ tr ∈ ts ++ ts', tr.action.isScheduling = false → tr.post.inner = tr.pre.inner := by
  obtain ⟨seen, events, inner⟩ := (unwinding_accounting cfg arith).observe_eq agree run run' same
  refine ⟨seen, events, inner, ?_⟩
  intro tr member hidden
  have silent : ∀ {u us v}, (scheduler cfg arith).Exec u us v → tr ∈ us →
      tr.post.inner = tr.pre.inner := by
    intro u us v run member
    have unwinding := unwinding_accounting cfg arith
    exact unwinding.view_eq (unwinding.hidden (unwinding.refl tr.pre) hidden (run.step_of_mem member)).2
  rcases List.mem_append.mp member with first | second
  · exact silent run first
  · exact silent run' second

/-- One request from its arrival to its selection. -/
def loneRequest : List Action :=
  [.arrive ⟨"f"⟩ (.fin 1), .createGuard 0, .enqueue 0, .stamp 0, .notify 0, .wakeNotified, .readCap,
    .readState, .trySelect]

/-- The same request, with debts reported before and after the enqueue. -/
def loneRequestAccounted : List Action :=
  [.reportAccounting ⟨"g"⟩ (-7), .arrive ⟨"f"⟩ (.fin 1), .createGuard 0, .enqueue 0,
    .reportAccounting ⟨"f"⟩ (-100), .stamp 0, .notify 0, .wakeNotified, .readCap, .readState,
    .reportAccounting ⟨"f"⟩ 3, .trySelect]

/-- A start in which the flow already owes something. -/
def indebtedStart : System :=
  (System.start .default).modifyFlow ⟨"f"⟩ fun flow => { flow with credit := flow.credit - 5 }

theorem accounting_never_schedules_lone :
    let m := scheduler .default .exact
    let ts := m.traceFrom indebtedStart loneRequest
    let ts' := m.traceFrom (System.start .default) loneRequestAccounted
    ts.length = 9 ∧ ts'.length = 12 ∧ Machine.events ts = Machine.events ts' := by
  intro m ts ts'
  have agree : indebtedStart.Agree (System.start .default) :=
    ⟨(FlowRegistry.Agree.refl _).modify_credit ⟨"f"⟩
      (fun flow => { flow with credit := flow.credit - 5 }) fun _ => rfl, rfl⟩
  refine ⟨by decide +kernel, by decide +kernel, ?_⟩
  exact (accounting_never_schedules agree (m.exec_afterFrom indebtedStart loneRequest)
    (m.exec_afterFrom (System.start .default) loneRequestAccounted) (by decide +kernel)).2.1

end TinyLlb
