import TinyLlb.Gateway.Calls
import TinyLlb.Runtime.CreditUpdates
import TinyLlb.Runtime.Debits
import TinyLlb.Runtime.QueueDepth

/-! # The credit ledger

A selection takes the estimated cost of a request from its flow's credit, and the
drop of its lifecycle guard puts back what the request is not to be charged. So a
flow's credit is always minus the sum of what its selected requests are charged
at the moment: the estimate while they are in flight, and one of three amounts
once their guard is gone. A request whose ticket was lost stays in flight here.
-/

namespace TinyLlb

namespace Lifecycle

def guard? : Lifecycle → Option LifecycleGuard
  | .none => Option.none
  | .open_ guard => some guard
  | .dropped guard => some guard

/-- The estimate, as long as the guard has not been dropped. -/
def inFlight (cost : Int) : Lifecycle → Int
  | .dropped _ => 0
  | _ => cost

/-- The delivered tokens of a request that completed with any. -/
def completedDelivered : Lifecycle → Int
  | .dropped guard =>
      if guard.completedNormally = true ∧ guard.deliveredTokens > 0 then guard.deliveredTokens else 0
  | _ => 0

/-- The estimate of a request that completed with none. -/
def completedUnreported : Lifecycle → Int
  | .dropped guard =>
      if guard.completedNormally = true ∧ ¬ guard.deliveredTokens > 0 then guard.estimatedCost else 0
  | _ => 0

/-- The delivered tokens of a cancelled request. -/
def cancelledDelivered : Lifecycle → Int
  | .dropped guard => if guard.completedNormally = true then 0 else guard.deliveredTokens
  | _ => 0

/-- All a selected request is charged. -/
def charge (cost : Int) (lifecycle : Lifecycle) : Int :=
  lifecycle.inFlight cost + lifecycle.completedDelivered + lifecycle.completedUnreported +
    lifecycle.cancelledDelivered

theorem charge_of_live {cost : Int} {lifecycle : Lifecycle}
    (live : ∀ guard, lifecycle ≠ .dropped guard) : lifecycle.charge cost = cost := by
  cases lifecycle with
  | none | open_ => simp [charge, inFlight, completedDelivered, completedUnreported, cancelledDelivered]
  | dropped guard => exact absurd rfl (live guard)

end Lifecycle

/-- The drop of a guard restores the estimate up to the final charge. -/
theorem LifecycleGuard.restoreCost_exact (guard : LifecycleGuard) (cost : Int) :
    guard.restoreCost .exact = guard.estimatedCost - (Lifecycle.dropped guard).charge cost := by
  unfold LifecycleGuard.restoreCost Lifecycle.charge
  cases completed : guard.completedNormally with
  | true =>
      by_cases delivered : guard.deliveredTokens > 0
      · simp [Lifecycle.inFlight, Lifecycle.completedDelivered, Lifecycle.completedUnreported,
          Lifecycle.cancelledDelivered, completed, delivered, I64Arith.store]
      · simp [Lifecycle.inFlight, Lifecycle.completedDelivered, Lifecycle.completedUnreported,
          Lifecycle.cancelledDelivered, completed, delivered]
  | false =>
      simp [Lifecycle.inFlight, Lifecycle.completedDelivered, Lifecycle.completedUnreported,
        Lifecycle.cancelledDelivered, completed, I64Arith.saturatingSub]

namespace Gateway

/-- `work_unit as i64` of the admission with number `i`. -/
def costOf (g : Gateway) (i : Nat) : Int :=
  ((g.system.admissions[i]?).map fun a => a.workUnit.asI64).getD 0

/-- A part of the charge of request `i`, counted for its own flow only. -/
def share (g : Gateway) (f : FlowId) (part : Int → Lifecycle → Int) (i : Nat) : Int :=
  if g.system.flowOf i = some f then part (g.costOf i) (g.lifecycle i) else 0

/-- That part, summed over the selected requests of a flow. -/
def ledger (g : Gateway) (picked : List Nat) (f : FlowId) (part : Int → Lifecycle → Int) : Int :=
  Slots.total (g.share f part) picked

end Gateway

section

variable {cfg : GatewayConfig} {arith : I64Arith} {g g' : Gateway} {action : GatewayAction}
  {event : Option Event} {picked : List Nat}

/-- Every admission is still there with the same flow and work unit. -/
def System.Keeps (s s' : System) : Prop :=
  ∀ (i : Nat) (a : Admission), s.admissions[i]? = some a →
    ∃ b, s'.admissions[i]? = some b ∧ b.flowId = a.flowId ∧ b.workUnit = a.workUnit

theorem exec_onward {config : Config} {s s' : System} {us}
    (reach : (scheduler config arith).Reachable s) (run : (scheduler config arith).Exec s us s')
    {i : Nat} {a : Admission} (found : s.admissions[i]? = some a) :
    ∃ b, s'.admissions[i]? = some b ∧ b.flowId = a.flowId ∧ b.workUnit = a.workUnit ∧
      a.phase.Leads b.phase := by
  induction run with
  | nil => exact ⟨a, found, rfl, rfl, .refl _⟩
  | snoc before step ih =>
      obtain ⟨b, foundB, flow, workUnit, leads⟩ := ih
      have inv := SystemInv.reachable (reach.exec before)
      obtain ⟨c, foundC, goes⟩ := (inv.step_of_next step).onward foundB
      exact ⟨c, foundC, goes.flow.trans flow, goes.workUnit.trans workUnit, leads.trans goes.leads⟩

theorem exec_keeps {config : Config} {s s' : System} {us}
    (reach : (scheduler config arith).Reachable s) (run : (scheduler config arith).Exec s us s') :
    s.Keeps s' := by
  intro i a found
  obtain ⟨b, foundB, flow, workUnit, -⟩ := exec_onward reach run found
  exact ⟨b, foundB, flow, workUnit⟩

theorem GatewayStep.keeps (reach : (gateway cfg arith).Reachable g)
    (step : GatewayStep cfg arith g action event g') : g.system.Keeps g'.system := by
  obtain ⟨us, run, -⟩ := step.view
  exact exec_keeps (Gateway.reachable reach) run

theorem Gateway.share_of_found {i : Nat} {a : Admission} (found : g.system.admissions[i]? = some a)
    (f : FlowId) (part : Int → Lifecycle → Int) :
    g.share f part i = if a.flowId = f then part a.workUnit.asI64 (g.lifecycle i) else 0 := by
  simp only [Gateway.share, Gateway.costOf, System.flowOf, found, Option.map_some,
    Option.some.injEq, Option.getD_some]

theorem Gateway.share_eq (keeps : g.system.Keeps g'.system) {i : Nat} {a : Admission}
    (found : g.system.admissions[i]? = some a) {part : Int → Lifecycle → Int}
    (same : part a.workUnit.asI64 (g'.lifecycle i) = part a.workUnit.asI64 (g.lifecycle i))
    (f : FlowId) : g'.share f part i = g.share f part i := by
  obtain ⟨b, foundB, flow, workUnit⟩ := keeps i a found
  rw [Gateway.share_of_found found, Gateway.share_of_found foundB, flow, workUnit, same]

/-- Every lifecycle guard belongs to a selected request and carries its flow and
    estimated cost. -/
def Guarded (g : Gateway) (picked : List Nat) : Prop :=
  ∀ i guard, (g.lifecycle i).guard? = some guard →
    ∃ a, g.system.admissions[i]? = some a ∧ guard.flowId = a.flowId ∧
      guard.estimatedCost = a.workUnit.asI64 ∧ i ∈ picked

/-- The credit of every flow is minus the charges of its selected requests. -/
def Balanced (g : Gateway) (picked : List Nat) : Prop :=
  ∀ f, (g.system.flow f).credit = - g.ledger picked f Lifecycle.charge

/-- What a step does to credits and lifecycle guards. -/
inductive LedgerChange (arith : I64Arith) (g : Gateway) (action : GatewayAction)
    (event : Option Event) (g' : Gateway) : Prop where
  | selected (selection : Selection) (forced : Bool) (a : Admission)
      (emitted : event = some (.selected selection forced))
      (found : g.system.admissions[selection.pending.tx]? = some a)
      (waits : Waits a selection.flowId selection.pending)
      (queued : selection.pending ∈ g.system.inner.queue selection.flowId)
      (lifecycle : g'.lifecycle = g.lifecycle)
      (credit : ∀ f, (g'.system.flow f).credit =
        if f = selection.flowId then
          arith.store ((g.system.flow selection.flowId).credit - selection.pending.cost)
        else (g.system.flow f).credit)
  | dropped (i : Nat) (guard : LifecycleGuard) (which : action = .dropLifecycle i)
      (silent : event = none) (live : g.lifecycle i = .open_ guard)
      (lifecycle : g'.lifecycle = Function.update g.lifecycle i (.dropped guard))
      (credit : ∀ f, (g'.system.flow f).credit =
        if f = guard.flowId then
          arith.store ((g.system.flow guard.flowId).credit + guard.restoreCost arith)
        else (g.system.flow f).credit)
  | opened (i : Nat) (a : Admission) (silent : event = none)
      (found : g.system.admissions[i]? = some a) (admitted : ∃ ticket, a.phase = .admitted ticket)
      (fresh : g.lifecycle i = .none)
      (lifecycle : g'.lifecycle =
        Function.update g.lifecycle i (.open_ (LifecycleGuard.new a.flowId a.workUnit.asI64)))
      (credit : ∀ f, (g'.system.flow f).credit = (g.system.flow f).credit)
  | continued (i : Nat) (guard guard' : LifecycleGuard) (silent : event = none)
      (live : g.lifecycle i = .open_ guard) (flow : guard'.flowId = guard.flowId)
      (cost : guard'.estimatedCost = guard.estimatedCost)
      (lifecycle : g'.lifecycle = Function.update g.lifecycle i (.open_ guard'))
      (credit : ∀ f, (g'.system.flow f).credit = (g.system.flow f).credit)
  | kept (quiet : ∀ selection forced, event ≠ some (.selected selection forced))
      (lifecycle : g'.lifecycle = g.lifecycle)
      (credit : ∀ f, (g'.system.flow f).credit = (g.system.flow f).credit)

theorem GatewayStep.ledgerChange (reach : (gateway cfg arith).Reachable g)
    (step : GatewayStep cfg arith g action event g') : LedgerChange arith g action event g' := by
  have reached := Gateway.reachable reach
  have inv := SystemInv.reachable reached
  have touched : ∀ (s : System) (f : FlowId), ∀ h,
      ((s.modifyFlow f id).flow h).credit = (s.flow h).credit :=
    fun s f h => System.field_modifyFlow Flow.credit id (fun _ => rfl) s f h
  cases step with
  | @sched action event s' own step =>
      have move := inv.step_of_next step
      rcases move.credit_cases with ⟨f, restoreCost, rfl, -⟩ | ⟨selection, forced, -, emitted, credit⟩ |
        ⟨-, quiet, credit⟩
      · simp [Gateway.leavesToScheduler] at own
      · obtain ⟨⟨a, found, waits⟩, queued, -⟩ := move.selects (Links.reachable reached) inv emitted
        exact .selected selection forced a emitted found waits queued rfl credit
      · exact .kept quiet rfl credit
  | @dropLifecycle i guard live =>
      apply LedgerChange.dropped i guard rfl rfl live rfl
      intro f
      have written := System.flow_modifyFlow (g.closeGuard arith i guard).system guard.flowId
        (fun flow => { flow with credit := arith.store (flow.credit + guard.restoreCost arith) }) f
      change (((g.closeGuard arith i guard).system.modifyFlow guard.flowId _).flow f).credit = _
      rw [written]
      split <;> rfl
  | @openGuard i a ticket found phase fresh =>
      exact .opened i a rfl found ⟨ticket, phase⟩ fresh rfl fun _ => rfl
  | @addDelivered i guard count live positive =>
      exact .continued i guard (guard.addDeliveredTokens arith count) rfl live rfl rfl rfl fun _ => rfl
  | @markCompleted i guard live =>
      exact .continued i guard guard.markCompleted rfl live rfl rfl rfl fun _ => rfl
  | @request f body unix isTurnBoundary =>
      apply LedgerChange.kept (by simp) (Gateway.request_lifecycle cfg g f body unix isTurnBoundary)
      rw [Gateway.request_system]
      apply System.field_modifyFlow Flow.credit
      intro flow
      rfl
  | @refused c call => exact .kept (by simp) rfl (touched g.system call.flowId)
  | @admitInner c call => exact .kept (by simp) rfl (touched g.system call.flowId)
  | _ => exact .kept (by simp) rfl fun _ => rfl

/-- What a step does to the lifecycle of request `i`. -/
inductive LifecycleChange (g g' : Gateway) (i : Nat) : Prop where
  | opened (a : Admission) (ticket : Ticket) (found : g.system.admissions[i]? = some a)
      (phase : a.phase = .admitted ticket) (before : g.lifecycle i = .none)
      (after : g'.lifecycle i = .open_ (LifecycleGuard.new a.flowId a.workUnit.asI64))
  | continued (guard guard' : LifecycleGuard) (flow : guard'.flowId = guard.flowId)
      (cost : guard'.estimatedCost = guard.estimatedCost) (before : g.lifecycle i = .open_ guard)
      (after : g'.lifecycle i = .open_ guard')
  | dropped (guard : LifecycleGuard) (before : g.lifecycle i = .open_ guard)
      (after : g'.lifecycle i = .dropped guard)
  | kept (same : g'.lifecycle i = g.lifecycle i)

theorem LedgerChange.lifecycleChange (change : LedgerChange arith g action event g') (i : Nat) :
    LifecycleChange g g' i := by
  have elsewhere : ∀ (j : Nat) (lifecycle : Lifecycle), i ≠ j →
      g'.lifecycle = Function.update g.lifecycle j lifecycle → LifecycleChange g g' i := by
    intro j lifecycle other written
    apply LifecycleChange.kept
    rw [written, Function.update_of_ne other]
  have here : ∀ lifecycle : Lifecycle, g'.lifecycle = Function.update g.lifecycle i lifecycle →
      g'.lifecycle i = lifecycle := by
    intro lifecycle written
    rw [written, Function.update_self]
  cases change with
  | selected _ _ _ _ _ _ _ lifecycle | kept _ lifecycle => exact .kept (congrFun lifecycle i)
  | dropped j guard which silent live lifecycle =>
      by_cases own : i = j
      · subst j
        exact .dropped guard live (here _ lifecycle)
      · exact elsewhere j _ own lifecycle
  | opened j a silent found admitted fresh lifecycle =>
      by_cases own : i = j
      · subst j
        obtain ⟨ticket, phase⟩ := admitted
        exact .opened a ticket found phase fresh (here _ lifecycle)
      · exact elsewhere j _ own lifecycle
  | continued j guard guard' silent live flow cost lifecycle =>
      by_cases own : i = j
      · subst j
        exact .continued guard guard' flow cost live (here _ lifecycle)
      · exact elsewhere j _ own lifecycle

theorem Guarded.next (guarded : Guarded g picked) (debits : Debits g.system picked)
    (reach : (gateway cfg arith).Reachable g) (step : GatewayStep cfg arith g action event g') :
    Guarded g' (picked ++ chosen event.toList) := by
  have keeps := step.keeps reach
  -- a guard that was there, or that took the place of one of the same flow and cost
  have carried : ∀ (i : Nat) (guard guard' : LifecycleGuard), (g.lifecycle i).guard? = some guard →
      guard'.flowId = guard.flowId → guard'.estimatedCost = guard.estimatedCost →
      ∃ a, g'.system.admissions[i]? = some a ∧ guard'.flowId = a.flowId ∧
        guard'.estimatedCost = a.workUnit.asI64 ∧ i ∈ picked ++ chosen event.toList := by
    intro i guard guard' holds flow cost
    obtain ⟨a, found, ofFlow, ofCost, member⟩ := guarded i guard holds
    obtain ⟨b, foundB, flowB, workUnitB⟩ := keeps i a found
    refine ⟨b, foundB, ?_, ?_, List.mem_append_left _ member⟩
    · rw [flow, ofFlow, flowB]
    · rw [cost, ofCost, workUnitB]
  intro i guard holds
  cases (step.ledgerChange reach).lifecycleChange i with
  | opened a ticket found phase before after =>
      rw [after] at holds
      obtain rfl := Option.some.inj holds
      obtain ⟨b, foundB, flowB, workUnitB⟩ := keeps i a found
      have member := debits.tickets i a found (by simp [phase, Phase.ticket?])
      exact ⟨b, foundB, flowB.symm, by rw [workUnitB]; rfl, List.mem_append_left _ member⟩
  | continued old new flow cost before after =>
      rw [after] at holds
      obtain rfl := Option.some.inj holds
      exact carried i old new (by rw [before]; rfl) flow cost
  | dropped old before after =>
      rw [after] at holds
      obtain rfl := Option.some.inj holds
      exact carried i old old (by rw [before]; rfl) rfl rfl
  | kept same =>
      rw [same] at holds
      exact carried i guard guard holds rfl rfl

/-- The stored results of a step's credit operations are the exact ones. -/
structure ExactCredit (arith : I64Arith) (g : Gateway) (action : GatewayAction)
    (event : Option Event) : Prop where
  debit : ∀ selection forced, event = some (.selected selection forced) →
    arith.store ((g.system.flow selection.flowId).credit - selection.pending.cost) =
      (g.system.flow selection.flowId).credit - selection.pending.cost
  restore : ∀ i guard, action = .dropLifecycle i → g.lifecycle i = .open_ guard →
    arith.store ((g.system.flow guard.flowId).credit + guard.restoreCost arith) =
      (g.system.flow guard.flowId).credit + guard.restoreCost .exact

/-- A request that is charged as before by a step leaves the sum over the old
    selections as it was. -/
theorem Gateway.ledger_eq (debits : Debits g.system picked) (keeps : g.system.Keeps g'.system)
    {part : Int → Lifecycle → Int}
    (same : ∀ i ∈ picked, ∀ cost, part cost (g'.lifecycle i) = part cost (g.lifecycle i))
    (f : FlowId) : g'.ledger picked f part = g.ledger picked f part := by
  apply Slots.total_congr
  intro i member
  obtain ⟨a, found, -⟩ := debits.past i member
  exact Gateway.share_eq keeps found (same i member _) f

/-- A change of one lifecycle moves the sum of its flow by what it changes. -/
theorem Gateway.ledger_update (debits : Debits g.system picked) (keeps : g.system.Keeps g'.system)
    {i : Nat} {a : Admission} (member : i ∈ picked) (found : g.system.admissions[i]? = some a)
    {lifecycle' : Lifecycle} (lifecycle : g'.lifecycle = Function.update g.lifecycle i lifecycle')
    (part : Int → Lifecycle → Int) (f : FlowId) :
    g'.ledger picked f part = g.ledger picked f part +
      if a.flowId = f then part a.workUnit.asI64 lifecycle' - part a.workUnit.asI64 (g.lifecycle i)
      else 0 := by
  obtain ⟨b, foundB, flowB, workUnitB⟩ := keeps i a found
  have others : ∀ j ∈ picked, j ≠ i → g'.share f part j = g.share f part j := by
    intro j inside other
    obtain ⟨c, foundC, -⟩ := debits.past j inside
    apply Gateway.share_eq keeps foundC
    rw [lifecycle, Function.update_of_ne other]
  have sum : g'.ledger picked f part = g.ledger picked f part - g.share f part i + g'.share f part i :=
    Slots.total_update debits.nodup member others
  rw [sum, Gateway.share_of_found found, Gateway.share_of_found foundB, lifecycle,
    Function.update_self, flowB, workUnitB]
  split
  · omega
  · omega

theorem Guarded.absent (guarded : Guarded g picked) {i : Nat} (fresh : i ∉ picked) :
    g.lifecycle i = .none := by
  cases lifecycle : g.lifecycle i with
  | none => rfl
  | open_ guard | dropped guard =>
      obtain ⟨-, -, -, -, member⟩ := guarded i guard (by rw [lifecycle]; rfl)
      exact absurd member fresh

theorem Gateway.ledger_selected (debits : Debits g.system picked) (guarded : Guarded g picked)
    (keeps : g.system.Keeps g'.system) (lifecycle : g'.lifecycle = g.lifecycle)
    {f : FlowId} {p : Pending} {a : Admission} (found : g.system.admissions[p.tx]? = some a)
    (waits : Waits a f p) (queued : p ∈ g.system.inner.queue f) (part : Int → Lifecycle → Int)
    (h : FlowId) :
    g'.ledger (picked ++ [p.tx]) h part =
      g.ledger picked h part + if f = h then part p.cost .none else 0 := by
  obtain ⟨b, foundB, flowB, workUnitB⟩ := keeps p.tx a found
  have absent := guarded.absent (debits.queued f p queued)
  have mine : g'.share h part p.tx = if f = h then part p.cost .none else 0 := by
    rw [Gateway.share_of_found foundB, lifecycle, absent, flowB, waits.flow, workUnitB,
      waits.workUnit]
    rfl
  have old := Gateway.ledger_eq debits keeps
    (fun i _ cost => congrArg (part cost) (congrFun lifecycle i)) h
  unfold Gateway.ledger at old ⊢
  rw [Slots.total_append, old, Slots.total_cons, mine, Slots.total_nil, add_zero]

theorem Balanced.debit (balanced : Balanced g picked) (debits : Debits g.system picked)
    (guarded : Guarded g picked) (keeps : g.system.Keeps g'.system)
    (lifecycle : g'.lifecycle = g.lifecycle) {f : FlowId} {p : Pending} {a : Admission}
    (found : g.system.admissions[p.tx]? = some a) (waits : Waits a f p)
    (queued : p ∈ g.system.inner.queue f) :
    (g.system.flow f).credit - p.cost = -g'.ledger (picked ++ [p.tx]) f Lifecycle.charge := by
  rw [Gateway.ledger_selected debits guarded keeps lifecycle found waits queued, if_pos rfl,
    Lifecycle.charge_of_live (by simp), balanced f]
  omega

theorem Balanced.restore (balanced : Balanced g picked) (debits : Debits g.system picked)
    (guarded : Guarded g picked) (keeps : g.system.Keeps g'.system) {i : Nat} {guard : LifecycleGuard}
    (live : g.lifecycle i = .open_ guard)
    (lifecycle : g'.lifecycle = Function.update g.lifecycle i (.dropped guard)) :
    (g.system.flow guard.flowId).credit + guard.restoreCost .exact =
      -g'.ledger picked guard.flowId Lifecycle.charge := by
  obtain ⟨a, found, flow, cost, member⟩ := guarded i guard (by rw [live]; rfl)
  have estimate : (Lifecycle.open_ guard).charge guard.estimatedCost = guard.estimatedCost :=
    Lifecycle.charge_of_live (by simp)
  rw [Gateway.ledger_update debits keeps member found lifecycle, if_pos flow.symm, live, ← cost,
    estimate, guard.restoreCost_exact guard.estimatedCost, balanced guard.flowId]
  omega

theorem Balanced.next (balanced : Balanced g picked) (guarded : Guarded g picked)
    (debits : Debits g.system picked) (reach : (gateway cfg arith).Reachable g)
    (step : GatewayStep cfg arith g action event g') (exactly : ExactCredit arith g action event) :
    Balanced g' (picked ++ chosen event.toList) := by
  have keeps := step.keeps reach
  intro f
  have before := balanced f
  cases step.ledgerChange reach with
  | selected selection forced a emitted found waits queued lifecycle credit =>
      rw [emitted, chosen_selected, credit]
      by_cases same : f = selection.flowId
      · subst f
        rw [if_pos rfl, exactly.debit selection forced emitted]
        exact balanced.debit debits guarded keeps lifecycle found waits queued
      · have other : ¬ selection.flowId = f := fun h => same h.symm
        rw [if_neg same, Gateway.ledger_selected debits guarded keeps lifecycle found waits queued,
          if_neg other, add_zero, before]
  | dropped i guard which silent live lifecycle credit =>
      rw [silent, chosen_other (by simp), List.append_nil, credit]
      by_cases same : f = guard.flowId
      · subst f
        rw [if_pos rfl, exactly.restore i guard which live]
        exact balanced.restore debits guarded keeps live lifecycle
      · obtain ⟨a, found, flow, cost, member⟩ := guarded i guard (by rw [live]; rfl)
        have other : ¬ a.flowId = f := fun h => same (h.symm.trans flow.symm)
        rw [if_neg same, Gateway.ledger_update debits keeps member found lifecycle, if_neg other,
          add_zero, before]
  | opened i a silent found admitted fresh lifecycle credit =>
      rw [silent, chosen_other (by simp), List.append_nil, credit, before,
        Gateway.ledger_eq debits keeps]
      intro j _ cost
      rw [lifecycle]
      by_cases same : j = i
      · subst j
        rw [Function.update_self, fresh, Lifecycle.charge_of_live (by simp),
          Lifecycle.charge_of_live (by simp)]
      · rw [Function.update_of_ne same]
  | continued i guard guard' silent live flow cost lifecycle credit =>
      rw [silent, chosen_other (by simp), List.append_nil, credit, before,
        Gateway.ledger_eq debits keeps]
      intro j _ cost
      rw [lifecycle]
      by_cases same : j = i
      · subst j
        rw [Function.update_self, live, Lifecycle.charge_of_live (by simp),
          Lifecycle.charge_of_live (by simp)]
      · rw [Function.update_of_ne same]
  | kept quiet lifecycle credit =>
      rw [chosen_other quiet, List.append_nil, credit, before]
      rw [Gateway.ledger_eq debits keeps (fun i _ cost => by rw [lifecycle])]

theorem Guarded.start (cfg : GatewayConfig) : Guarded (Gateway.start cfg) [] := by
  intro i guard holds
  cases holds

theorem Balanced.start (cfg : GatewayConfig) : Balanced (Gateway.start cfg) [] := fun _ => rfl

theorem debits_of_run {ts} (run : (gateway cfg arith).Exec (Gateway.start cfg) ts g) :
    Debits g.system (chosen (Machine.events ts)) := by
  obtain ⟨us, viewed, same⟩ := gateway_refines run
  rw [← same]
  exact Debits.of_run viewed

theorem guarded_of_run {ts} (run : (gateway cfg arith).Exec (Gateway.start cfg) ts g) :
    Guarded g (chosen (Machine.events ts)) := by
  induction run with
  | nil => exact Guarded.start cfg
  | snoc before step ih =>
      rw [Machine.events_append, Machine.events_singleton, chosen_append]
      exact ih.next (debits_of_run before) ⟨_, before⟩ (GatewayStep.of_next step)

theorem exactCredit_exact (g : Gateway) (action : GatewayAction) (event : Option Event) :
    ExactCredit .exact g action event := ⟨fun _ _ _ => rfl, fun _ _ _ _ => rfl⟩

theorem Gateway.ledger_charge (g : Gateway) (picked : List Nat) (f : FlowId) :
    g.ledger picked f Lifecycle.charge =
      g.ledger picked f Lifecycle.inFlight +
        g.ledger picked f (fun _ => Lifecycle.completedDelivered) +
        g.ledger picked f (fun _ => Lifecycle.completedUnreported) +
        g.ledger picked f (fun _ => Lifecycle.cancelledDelivered) := by
  unfold Gateway.ledger
  rw [← Slots.total_add, ← Slots.total_add, ← Slots.total_add]
  apply Slots.total_congr
  intro i _
  unfold Gateway.share
  split
  · rfl
  · rfl

end

/-- With unbounded integers a flow's credit is, in every state of every run, minus
    the estimates of its requests in flight and the charges of the settled ones. -/
theorem credit_ledger (cfg : GatewayConfig) {ts g}
    (run : (gateway cfg .exact).Exec (Gateway.start cfg) ts g) (f : FlowId) :
    let selected := chosen (Machine.events ts)
    (g.system.flow f).credit =
      -(g.ledger selected f Lifecycle.inFlight +
        g.ledger selected f (fun _ => Lifecycle.completedDelivered) +
        g.ledger selected f (fun _ => Lifecycle.completedUnreported) +
        g.ledger selected f (fun _ => Lifecycle.cancelledDelivered)) := by
  intro selected
  have balanced : Balanced g selected := by
    induction run with
    | nil => exact Balanced.start cfg
    | @snoc ts v a w e before step ih =>
        have next := ih.next (guarded_of_run before) (debits_of_run before) ⟨_, before⟩
          (GatewayStep.of_next step) (exactCredit_exact v a e)
        change Balanced w (chosen (Machine.events (ts ++ [⟨v, a, e, w⟩])))
        rwa [Machine.events_append, Machine.events_singleton, chosen_append]
  rw [← Gateway.ledger_charge]
  exact balanced f

/-- One admission from its guard to its ticket, as the only one waiting; `wakes`
    brings the loop to its look at the cap. -/
def Action.ticketFor (wakes : List Action) (i : Nat) : List Action :=
  [.createGuard i, .enqueue i, .stamp i, .notify i] ++ wakes ++
    [.readCap, .readState, .trySelect, .send, .receive i]

/-- A request from its body to its lifecycle guard. -/
def GatewayAction.serve (wakes : List Action) (f : FlowId) (tokens : ℚ) (i : Nat) :
    List GatewayAction :=
  [.request f (.json (some (.number (.fin tokens)))) 0 true, .stallGate i, .admitInner i] ++
    (Action.ticketFor wakes i).map GatewayAction.sched ++ [.openGuard i]

/-- One request completes with an overrun of two tokens, and the next is in flight. -/
theorem credit_ledger_overrun :
    let m := gateway .default .exact
    let actions := GatewayAction.serve [.wakeNotified] ⟨"a"⟩ 1 0 ++
      [.addDelivered 0 3, .markCompleted 0, .dropLifecycle 0] ++ GatewayAction.serve [] ⟨"a"⟩ 1 1
    let selected := chosen (Machine.events (m.trace actions))
    ((m.after actions).system.flow ⟨"a"⟩).credit = -4 ∧ selected = [0, 1] ∧
      ((m.after actions).system.flow ⟨"a"⟩).credit =
        -((m.after actions).ledger selected ⟨"a"⟩ Lifecycle.inFlight +
          (m.after actions).ledger selected ⟨"a"⟩ (fun _ => Lifecycle.completedDelivered) +
          (m.after actions).ledger selected ⟨"a"⟩ (fun _ => Lifecycle.completedUnreported) +
          (m.after actions).ledger selected ⟨"a"⟩ (fun _ => Lifecycle.cancelledDelivered)) := by
  intro m actions selected
  have law := credit_ledger .default (m.exec_after actions) ⟨"a"⟩
  exact ⟨by decide +kernel, by decide +kernel, law⟩

end TinyLlb
