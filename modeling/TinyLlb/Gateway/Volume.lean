import TinyLlb.Gateway.Ledger

/-! # How much the requests of a flow amount to

What a flow can be charged in a run is bounded by what its requests ask for and
what is delivered to them. A request with a negative `max_tokens` is first
credited instead. Both amounts bound the flow's ledger, and with it the credit,
and they bound the estimate that the progress tracker keeps. The tracker loses
an entry that comes down to zero while guards are open, so its estimate is not
the sum of the open estimates, but never further from zero than they explain.
-/

namespace TinyLlb

/-- The tokens delivered to request `i` in a run. -/
def deliveredTo (ts : List (Transition Gateway GatewayAction Event)) (i : Nat) : Int :=
  Slots.total (fun tr =>
    match tr.action with
    | .addDelivered j count => if j = i then count else 0
    | _ => 0) ts

namespace Lifecycle

/-- The tokens its guard has counted. -/
def delivered (lifecycle : Lifecycle) : Int := lifecycle.guard?.elim 0 LifecycleGuard.deliveredTokens

/-- The least a request can account for in the tracked estimate. -/
def trackedLow (cost : Int) : Lifecycle → Int
  | .none => 0
  | .open_ _ => min cost 0
  | .dropped _ => min (-cost) 0

/-- The most a request can account for in it. -/
def trackedHigh (cost : Int) : Lifecycle → Int
  | .none => 0
  | .open_ _ => max cost 0
  | .dropped _ => max (-cost) 0

end Lifecycle

namespace Gateway

/-- The most a request can be charged. -/
def spends (ts : List (Transition Gateway GatewayAction Event)) (g : Gateway) (i : Nat) : Int :=
  max (g.costOf i) (deliveredTo ts i)

/-- The most it can be credited. -/
def gains (g : Gateway) (i : Nat) : Int := max (-g.costOf i) 0

/-- An amount per request, summed over the requests of a flow. -/
def sumOver (g : Gateway) (f : FlowId) (amount : Nat → Int) : Int :=
  Slots.total (fun i => if g.system.flowOf i = some f then amount i else 0)
    (List.range g.system.admissions.length)

def spent (ts : List (Transition Gateway GatewayAction Event)) (g : Gateway) (f : FlowId) : Int :=
  g.sumOver f (g.spends ts)

def gained (g : Gateway) (f : FlowId) : Int := g.sumOver f g.gains

end Gateway

/-- What the requests of each flow amount to fits an `i64`. -/
def TokensFit (ts : List (Transition Gateway GatewayAction Event)) (g : Gateway) : Prop :=
  ∀ a ∈ g.system.admissions, g.spent ts a.flowId + g.gained a.flowId ≤ i64Max

section

variable {cfg : GatewayConfig} {arith : I64Arith} {g g' : Gateway} {action : GatewayAction}
  {event : Option Event} {picked : List Nat} {ts : List (Transition Gateway GatewayAction Event)}
  {f : FlowId}

theorem Gateway.gains_nonneg (g : Gateway) (i : Nat) : 0 ≤ g.gains i := le_max_right _ _

theorem Gateway.costOf_of_found {i : Nat} {a : Admission}
    (found : g.system.admissions[i]? = some a) : g.costOf i = a.workUnit.asI64 := by
  simp [Gateway.costOf, found]

theorem System.Keeps.costOf (keeps : g.system.Keeps g'.system) {i : Nat} {a : Admission}
    (found : g.system.admissions[i]? = some a) : g'.costOf i = g.costOf i := by
  obtain ⟨b, foundB, -, workUnit⟩ := keeps i a found
  rw [Gateway.costOf_of_found found, Gateway.costOf_of_found foundB, workUnit]

theorem System.Keeps.flowOf {s s' : System} (keeps : s.Keeps s') {i : Nat} {a : Admission}
    (found : s.admissions[i]? = some a) : s'.flowOf i = s.flowOf i := by
  obtain ⟨b, foundB, flow, -⟩ := keeps i a found
  rw [System.flowOf_of_found found, System.flowOf_of_found foundB, flow]

theorem Gateway.sumOver_le (keeps : g.system.Keeps g'.system) {amount amount' : Nat → Int}
    (le : ∀ i < g.system.admissions.length, amount i ≤ amount' i) (nonneg : ∀ i, 0 ≤ amount' i)
    (f : FlowId) : g.sumOver f amount ≤ g'.sumOver f amount' := by
  have row : ∀ i ∈ List.range g.system.admissions.length, ∃ a, g.system.admissions[i]? = some a := by
    intro i member
    exact ⟨_, List.getElem?_eq_getElem (List.mem_range.mp member)⟩
  apply Slots.total_le_of_subset List.nodup_range
  · intro i member
    obtain ⟨a, found⟩ := row i member
    obtain ⟨b, foundB, -⟩ := keeps i a found
    exact List.mem_range.mpr (List.getElem?_eq_some_iff.mp foundB).1
  · intro i member
    obtain ⟨a, found⟩ := row i member
    rw [keeps.flowOf found]
    split
    · exact le i (List.mem_range.mp member)
    · exact le_rfl
  · intro i _
    split
    · exact nonneg i
    · exact le_rfl

theorem Gateway.le_sumOver {amount : Nat → Int} (nonneg : ∀ i, 0 ≤ amount i) {i : Nat} {a : Admission}
    (found : g.system.admissions[i]? = some a) : amount i ≤ g.sumOver a.flowId amount := by
  have single : Slots.total amount [i] ≤ g.sumOver a.flowId amount := by
    apply Slots.total_le_of_subset (List.nodup_singleton i)
    · intro j member
      obtain rfl := List.mem_singleton.mp member
      exact List.mem_range.mpr (List.getElem?_eq_some_iff.mp found).1
    · intro j member
      obtain rfl := List.mem_singleton.mp member
      rw [System.flowOf_of_found found, if_pos rfl]
    · intro j _
      split
      · exact nonneg j
      · exact le_rfl
  simpa using single

theorem Gateway.ledger_le (debits : Debits g.system picked) {part : Int → Lifecycle → Int}
    {amount : Nat → Int} (le : ∀ i, part (g.costOf i) (g.lifecycle i) ≤ amount i)
    (nonneg : ∀ i, 0 ≤ amount i) : g.ledger picked f part ≤ g.sumOver f amount := by
  apply Slots.total_le_of_subset debits.nodup
  · intro i member
    obtain ⟨a, found, -⟩ := debits.past i member
    exact List.mem_range.mpr (List.getElem?_eq_some_iff.mp found).1
  · intro i _
    unfold Gateway.share
    split
    · exact le i
    · exact le_rfl
  · intro i _
    split
    · exact nonneg i
    · exact le_rfl

theorem Gateway.ledger_neg (g : Gateway) (picked : List Nat) (f : FlowId)
    (part : Int → Lifecycle → Int) :
    g.ledger picked f (fun cost lifecycle => -part cost lifecycle) = -g.ledger picked f part := by
  unfold Gateway.ledger
  rw [← Slots.total_neg]
  apply Slots.total_congr
  intro i _
  unfold Gateway.share
  split
  · rfl
  · rfl

theorem Gateway.neg_ledger_le (debits : Debits g.system picked) {part : Int → Lifecycle → Int}
    {amount : Nat → Int} (le : ∀ i, -part (g.costOf i) (g.lifecycle i) ≤ amount i)
    (nonneg : ∀ i, 0 ≤ amount i) : -g.ledger picked f part ≤ g.sumOver f amount := by
  rw [← Gateway.ledger_neg]
  exact Gateway.ledger_le debits le nonneg

theorem Gateway.ledger_nonneg {part : Int → Lifecycle → Int}
    (nonneg : ∀ cost lifecycle, 0 ≤ part cost lifecycle) : 0 ≤ g.ledger picked f part := by
  apply Slots.total_nonneg
  intro i _
  unfold Gateway.share
  split
  · exact nonneg _ _
  · exact le_rfl

theorem Gateway.sumOver_nonneg {amount : Nat → Int} (nonneg : ∀ i, 0 ≤ amount i) :
    0 ≤ g.sumOver f amount := by
  apply Slots.total_nonneg
  intro i _
  split
  · exact nonneg i
  · exact le_rfl

theorem Gateway.sumOver_add (g : Gateway) (f : FlowId) (amount more : Nat → Int) :
    g.sumOver f (fun i => amount i + more i) = g.sumOver f amount + g.sumOver f more := by
  unfold Gateway.sumOver
  rw [← Slots.total_add]
  apply Slots.total_congr
  intro i _
  split
  · rfl
  · rfl

theorem deliveredTo_snoc (ts : List (Transition Gateway GatewayAction Event)) (tr) (i : Nat) :
    deliveredTo (ts ++ [tr]) i = deliveredTo ts i +
      match tr.action with
      | .addDelivered j count => if j = i then count else 0
      | _ => 0 := by
  rw [deliveredTo, Slots.total_append, Slots.total_cons, Slots.total_nil, add_zero, deliveredTo]

theorem deliveredTo_other (other : ∀ j count, action ≠ .addDelivered j count) (i : Nat) :
    deliveredTo (ts ++ [⟨g, action, event, g'⟩]) i = deliveredTo ts i := by
  rw [deliveredTo_snoc]
  cases action with
  | addDelivered j count => exact absurd rfl (other j count)
  | _ => exact add_zero _

theorem deliveredTo_le_snoc (step : GatewayStep cfg arith g action event g') (i : Nat) :
    deliveredTo ts i ≤ deliveredTo (ts ++ [⟨g, action, event, g'⟩]) i := by
  cases step with
  | @addDelivered j guard count live positive =>
      rw [deliveredTo_snoc]
      simp only
      split
      · omega
      · omega
  | _ => exact le_of_eq (deliveredTo_other (by simp) i).symm

theorem deliveredTo_nonneg (run : (gateway cfg arith).Exec (Gateway.start cfg) ts g) (i : Nat) :
    0 ≤ deliveredTo ts i := by
  induction run with
  | nil => exact le_rfl
  | snoc before step ih => exact ih.trans (deliveredTo_le_snoc (GatewayStep.of_next step) i)

theorem Gateway.spends_nonneg (run : (gateway cfg arith).Exec (Gateway.start cfg) ts g) (i : Nat) :
    0 ≤ g.spends ts i := le_max_of_le_right (deliveredTo_nonneg run i)

theorem TokensFit.before (run : (gateway cfg arith).Exec (Gateway.start cfg) ts g)
    (step : (gateway cfg arith).next g action = some (g', event))
    (fits : TokensFit (ts ++ [⟨g, action, event, g'⟩]) g') : TokensFit ts g := by
  have move := GatewayStep.of_next step
  have keeps := move.keeps ⟨_, run⟩
  intro a member
  obtain ⟨i, found⟩ := List.getElem?_of_mem member
  obtain ⟨b, foundB, flow, -⟩ := keeps i a found
  have after := fits b (List.mem_of_getElem? foundB)
  rw [flow] at after
  have cost : ∀ j < g.system.admissions.length, g'.costOf j = g.costOf j :=
    fun j inside => keeps.costOf (List.getElem?_eq_getElem inside)
  have spent : g.spent ts a.flowId ≤ g'.spent (ts ++ [⟨g, action, event, g'⟩]) a.flowId := by
    apply Gateway.sumOver_le keeps _ (Gateway.spends_nonneg (run.snoc step))
    intro j inside
    unfold Gateway.spends
    rw [cost j inside]
    exact max_le_max le_rfl (deliveredTo_le_snoc move j)
  have gained : g.gained a.flowId ≤ g'.gained a.flowId := by
    apply Gateway.sumOver_le keeps _ g'.gains_nonneg
    intro j inside
    unfold Gateway.gains
    rw [cost j inside]
  omega

theorem TokensFit.delivered (run : (gateway cfg arith).Exec (Gateway.start cfg) ts g)
    (fits : TokensFit ts g) {i : Nat} {a : Admission} (found : g.system.admissions[i]? = some a) :
    max a.workUnit.asI64 (deliveredTo ts i) + max (-a.workUnit.asI64) 0 ≤ i64Max := by
  have total := fits a (List.mem_of_getElem? found)
  have spends : g.spends ts i ≤ g.spent ts a.flowId :=
    Gateway.le_sumOver (Gateway.spends_nonneg run) found
  have gains : g.gains i ≤ g.gained a.flowId := Gateway.le_sumOver g.gains_nonneg found
  rw [Gateway.spends, Gateway.costOf_of_found found] at spends
  rw [Gateway.gains, Gateway.costOf_of_found found] at gains
  omega

/-- The guards have counted what was delivered. -/
def Tallied (g : Gateway) (ts : List (Transition Gateway GatewayAction Event)) : Prop :=
  ∀ i, (g.lifecycle i).delivered = deliveredTo ts i

theorem Tallied.next (tallied : Tallied g ts)
    (run : (gateway cfg arith).Exec (Gateway.start cfg) ts g)
    (step : (gateway cfg arith).next g action = some (g', event))
    (fits : TokensFit (ts ++ [⟨g, action, event, g'⟩]) g') :
    Tallied g' (ts ++ [⟨g, action, event, g'⟩]) := by
  have guarded := guarded_of_run run
  have keeps := (GatewayStep.of_next step).keeps ⟨_, run⟩
  have bound := fun i a => TokensFit.delivered (run.snoc step) fits (i := i) (a := a)
  -- a lifecycle that is written without tokens being delivered
  have rewritten : ∀ (i : Nat) (lifecycle : Lifecycle), (∀ j count, action ≠ .addDelivered j count) →
      g'.lifecycle = Function.update g.lifecycle i lifecycle →
      lifecycle.delivered = (g.lifecycle i).delivered →
      Tallied g' (ts ++ [⟨g, action, event, g'⟩]) := by
    intro i lifecycle other written same j
    rw [deliveredTo_other other, written, ← tallied j]
    by_cases own : j = i
    · subst j
      rw [Function.update_self, same]
    · rw [Function.update_of_ne own]
  have kept : (∀ j count, action ≠ .addDelivered j count) → g'.lifecycle = g.lifecycle →
      Tallied g' (ts ++ [⟨g, action, event, g'⟩]) := by
    intro other same j
    rw [deliveredTo_other other, same, tallied j]
  cases GatewayStep.of_next step with
  | @addDelivered i guard count live positive =>
      obtain ⟨a, found, -⟩ := guarded i guard (by rw [live]; rfl)
      obtain ⟨b, foundB, -⟩ := keeps i a found
      intro j
      rw [deliveredTo_snoc]
      change (Function.update g.lifecycle i _ j).delivered = _ + if i = j then count else 0
      by_cases own : j = i
      · subst j
        have before : guard.deliveredTokens = deliveredTo ts i := by
          rw [← tallied i, live]
          rfl
        have range := bound i b foundB
        rw [deliveredTo_snoc] at range
        simp only [if_true] at range
        have nonneg := deliveredTo_nonneg run i
        have fits : InI64 (guard.deliveredTokens + count) := by
          unfold InI64 i64Min i64Max at *
          omega
        rw [Function.update_self, if_pos rfl, ← before]
        exact arith.store_of_inI64 fits
      · have other : ¬ i = j := fun h => own h.symm
        rw [Function.update_of_ne own, if_neg other, add_zero, tallied j]
  | @openGuard i a ticket found phase fresh =>
      apply rewritten i _ (by simp) rfl
      rw [fresh]
      rfl
  | @markCompleted i guard live =>
      apply rewritten i _ (by simp) rfl
      rw [live]
      rfl
  | @dropLifecycle i guard live =>
      apply rewritten i _ (by simp) rfl
      rw [live]
      rfl
  | @request f body unix isTurnBoundary =>
      exact kept (by simp) (Gateway.request_lifecycle cfg g f body unix isTurnBoundary)
  | _ => exact kept (by simp) rfl

theorem Lifecycle.charge_bounds {cost tokens : Int} {lifecycle : Lifecycle}
    (tally : lifecycle.delivered = tokens) (nonneg : 0 ≤ tokens)
    (estimate : ∀ guard, lifecycle.guard? = some guard → guard.estimatedCost = cost) :
    -max (-cost) 0 ≤ lifecycle.charge cost ∧ lifecycle.charge cost ≤ max cost tokens := by
  cases lifecycle with
  | none | open_ =>
      rw [Lifecycle.charge_of_live (by simp)]
      omega
  | dropped guard =>
      have same : guard.estimatedCost = cost := estimate guard rfl
      have counted : guard.deliveredTokens = tokens := tally
      simp only [Lifecycle.charge, Lifecycle.inFlight, Lifecycle.completedDelivered,
        Lifecycle.completedUnreported, Lifecycle.cancelledDelivered, same, counted]
      cases guard.completedNormally with
      | true =>
          by_cases some_ : tokens > 0
          · simp only [some_, and_self, if_true, not_true_eq_false, and_false, if_false]
            omega
          · simp only [some_, and_false, if_false, not_false_eq_true, and_self, if_true]
            omega
      | false =>
          simp only [Bool.false_eq_true, false_and, if_false]
          omega

theorem Guarded.estimate (guarded : Guarded g picked) (i : Nat) {guard : LifecycleGuard}
    (holds : (g.lifecycle i).guard? = some guard) : guard.estimatedCost = g.costOf i := by
  obtain ⟨a, found, -, cost, -⟩ := guarded i guard holds
  rw [Gateway.costOf_of_found found, cost]

/-- The charges of a flow lie between what its requests can gain and spend. -/
theorem Tallied.ledger_bounds (tallied : Tallied g ts)
    (run : (gateway cfg arith).Exec (Gateway.start cfg) ts g) (f : FlowId) :
    let ledger := g.ledger (chosen (Machine.events ts)) f Lifecycle.charge
    ledger ≤ g.spent ts f ∧ -ledger ≤ g.gained f := by
  have guarded := guarded_of_run run
  have bounds : ∀ i, -max (-g.costOf i) 0 ≤ (g.lifecycle i).charge (g.costOf i) ∧
      (g.lifecycle i).charge (g.costOf i) ≤ g.spends ts i := by
    intro i
    exact Lifecycle.charge_bounds (tallied i) (deliveredTo_nonneg run i)
      fun guard holds => guarded.estimate i holds
  constructor
  · exact Gateway.ledger_le (debits_of_run run) (fun i => (bounds i).2) (Gateway.spends_nonneg run)
  · apply Gateway.neg_ledger_le (debits_of_run run) _ g.gains_nonneg
    intro i
    have low := (bounds i).1
    unfold Gateway.gains
    omega

theorem TokensFit.ledger_inI64 (fits : TokensFit ts g) (tallied : Tallied g ts)
    (run : (gateway cfg arith).Exec (Gateway.start cfg) ts g) {i : Nat} {a : Admission}
    (found : g.system.admissions[i]? = some a) :
    InI64 (-g.ledger (chosen (Machine.events ts)) a.flowId Lifecycle.charge) := by
  obtain ⟨high, low⟩ := tallied.ledger_bounds run a.flowId
  have total := fits a (List.mem_of_getElem? found)
  have spent : 0 ≤ g.spent ts a.flowId := Gateway.sumOver_nonneg (Gateway.spends_nonneg run)
  have gained : 0 ≤ g.gained a.flowId := Gateway.sumOver_nonneg g.gains_nonneg
  unfold InI64 i64Min i64Max at *
  omega

/-- The estimate of each flow lies within what its requests account for. -/
def Tracked (g : Gateway) (picked : List Nat) : Prop :=
  ∀ f, g.ledger picked f Lifecycle.trackedLow ≤ g.progress.estimatedFor f ∧
    g.progress.estimatedFor f ≤ g.ledger picked f Lifecycle.trackedHigh

theorem Lifecycle.tracked_signs (cost : Int) (lifecycle : Lifecycle) :
    lifecycle.trackedLow cost ≤ 0 ∧ 0 ≤ lifecycle.trackedHigh cost := by
  cases lifecycle with
  | none => exact ⟨le_rfl, le_rfl⟩
  | open_ | dropped => exact ⟨min_le_right _ _, le_max_right _ _⟩

theorem Gateway.tracked_bounds (run : (gateway cfg arith).Exec (Gateway.start cfg) ts g)
    (f : FlowId) :
    -g.ledger (chosen (Machine.events ts)) f Lifecycle.trackedLow ≤ g.spent ts f + g.gained f ∧
      g.ledger (chosen (Machine.events ts)) f Lifecycle.trackedHigh ≤ g.spent ts f + g.gained f := by
  have nonneg : ∀ i, 0 ≤ g.spends ts i + g.gains i :=
    fun i => Int.add_nonneg (Gateway.spends_nonneg run i) (g.gains_nonneg i)
  have sum : g.sumOver f (fun i => g.spends ts i + g.gains i) = g.spent ts f + g.gained f :=
    g.sumOver_add f _ _
  rw [← sum]
  constructor
  · apply Gateway.neg_ledger_le (debits_of_run run) _ nonneg
    intro i
    have delivered := deliveredTo_nonneg run i
    unfold Gateway.spends Gateway.gains
    cases g.lifecycle i <;> simp only [Lifecycle.trackedLow] <;> omega
  · apply Gateway.ledger_le (debits_of_run run) _ nonneg
    intro i
    have delivered := deliveredTo_nonneg run i
    unfold Gateway.spends Gateway.gains
    cases g.lifecycle i <;> simp only [Lifecycle.trackedHigh] <;> omega

theorem TokensFit.tracked_inI64 (fits : TokensFit ts g)
    (run : (gateway cfg arith).Exec (Gateway.start cfg) ts g) {i : Nat} {a : Admission}
    (found : g.system.admissions[i]? = some a) {n : Int}
    (low : g.ledger (chosen (Machine.events ts)) a.flowId Lifecycle.trackedLow ≤ n)
    (high : n ≤ g.ledger (chosen (Machine.events ts)) a.flowId Lifecycle.trackedHigh) : InI64 n := by
  have bounds := Gateway.tracked_bounds run a.flowId
  have total := fits a (List.mem_of_getElem? found)
  unfold InI64 i64Min i64Max at *
  omega

theorem Tracked.shift (tracked : Tracked g picked) (debits : Debits g.system picked)
    (keeps : g.system.Keeps g'.system) {i : Nat} {a : Admission} (member : i ∈ picked)
    (found : g.system.admissions[i]? = some a) {lifecycle' : Lifecycle}
    (lifecycle : g'.lifecycle = Function.update g.lifecycle i lifecycle') {n : Int}
    (low : lifecycle'.trackedLow a.workUnit.asI64 ≤
      (g.lifecycle i).trackedLow a.workUnit.asI64 + n)
    (high : (g.lifecycle i).trackedHigh a.workUnit.asI64 + n ≤
      lifecycle'.trackedHigh a.workUnit.asI64) :
    g'.ledger picked a.flowId Lifecycle.trackedLow ≤ g.progress.estimatedFor a.flowId + n ∧
      g.progress.estimatedFor a.flowId + n ≤ g'.ledger picked a.flowId Lifecycle.trackedHigh := by
  have before := tracked a.flowId
  rw [Gateway.ledger_update debits keeps member found lifecycle, if_pos rfl,
    Gateway.ledger_update debits keeps member found lifecycle, if_pos rfl]
  omega

theorem Tracked.elsewhere (tracked : Tracked g picked) (debits : Debits g.system picked)
    (keeps : g.system.Keeps g'.system) {i : Nat} {a : Admission} (member : i ∈ picked)
    (found : g.system.admissions[i]? = some a) {lifecycle' : Lifecycle}
    (lifecycle : g'.lifecycle = Function.update g.lifecycle i lifecycle')
    (own : g'.ledger picked a.flowId Lifecycle.trackedLow ≤ g'.progress.estimatedFor a.flowId ∧
      g'.progress.estimatedFor a.flowId ≤ g'.ledger picked a.flowId Lifecycle.trackedHigh)
    (others : ∀ f, f ≠ a.flowId → g'.progress.estimatedFor f = g.progress.estimatedFor f) :
    Tracked g' picked := by
  intro f
  by_cases same : f = a.flowId
  · rw [same]
    exact own
  · have other : ¬ a.flowId = f := fun h => same h.symm
    rw [others f same, Gateway.ledger_update debits keeps member found lifecycle, if_neg other,
      Gateway.ledger_update debits keeps member found lifecycle, if_neg other, add_zero, add_zero]
    exact tracked f

theorem Tracked.frame (tracked : Tracked g picked) (debits : Debits g.system picked)
    (guarded : Guarded g picked) (keeps : g.system.Keeps g'.system)
    (change : LedgerChange arith g action event g') (lifecycle : g'.lifecycle = g.lifecycle)
    (progress : g'.progress = g.progress) : Tracked g' (picked ++ chosen event.toList) := by
  intro f
  rw [progress]
  by_cases selects : ∃ selection forced, event = some (.selected selection forced)
  · obtain ⟨selection, forced, rfl⟩ := selects
    cases change with
    | selected selection' forced' a emitted found waits queued =>
        cases emitted
        rw [chosen_selected, Gateway.ledger_selected debits guarded keeps lifecycle found waits queued,
          Gateway.ledger_selected debits guarded keeps lifecycle found waits queued]
        simp only [Lifecycle.trackedLow, Lifecycle.trackedHigh, ite_self, add_zero]
        exact tracked f
    | kept quiet => exact absurd rfl (quiet selection forced)
    | dropped _ _ _ silent | opened _ _ silent | continued _ _ _ silent => cases silent
  · have quiet : ∀ selection forced, event ≠ some (.selected selection forced) :=
      fun selection forced same => selects ⟨selection, forced, same⟩
    rw [chosen_other quiet, List.append_nil,
      Gateway.ledger_eq debits keeps fun i _ cost => by rw [lifecycle],
      Gateway.ledger_eq debits keeps fun i _ cost => by rw [lifecycle]]
    exact tracked f

theorem Gateway.tracked_signs (g : Gateway) (picked : List Nat) (f : FlowId) :
    g.ledger picked f Lifecycle.trackedLow ≤ 0 ∧ 0 ≤ g.ledger picked f Lifecycle.trackedHigh := by
  have low : 0 ≤ g.ledger picked f (fun cost lifecycle => -lifecycle.trackedLow cost) := by
    apply Gateway.ledger_nonneg
    intro cost lifecycle
    have sign := (lifecycle.tracked_signs cost).1
    omega
  rw [Gateway.ledger_neg] at low
  have high : 0 ≤ g.ledger picked f Lifecycle.trackedHigh :=
    Gateway.ledger_nonneg fun cost lifecycle => (lifecycle.tracked_signs cost).2
  exact ⟨by omega, high⟩

theorem Tracked.start (cfg : GatewayConfig) : Tracked (Gateway.start cfg) [] :=
  fun _ => ⟨le_rfl, le_rfl⟩

theorem Tracked.register (tracked : Tracked g picked) (debits : Debits g.system picked)
    {i : Nat} {a : Admission} {ticket : Ticket} (keeps : g.system.Keeps g'.system)
    (found : g.system.admissions[i]? = some a)
    (phase : a.phase = .admitted ticket) (fresh : g.lifecycle i = .none)
    (lifecycle : g'.lifecycle = Function.update g.lifecycle i
      (.open_ (LifecycleGuard.new a.flowId a.workUnit.asI64))) :
    g'.ledger picked a.flowId Lifecycle.trackedLow ≤
        g.progress.estimatedFor a.flowId + a.workUnit.asI64 ∧
      g.progress.estimatedFor a.flowId + a.workUnit.asI64 ≤
        g'.ledger picked a.flowId Lifecycle.trackedHigh := by
  have member := debits.tickets i a found (by simp [phase, Phase.ticket?])
  apply tracked.shift debits keeps member found lifecycle
  · rw [fresh]
    simp only [Lifecycle.trackedLow]
    omega
  · rw [fresh]
    simp only [Lifecycle.trackedHigh]
    omega

theorem Tracked.unregister (tracked : Tracked g picked) (debits : Debits g.system picked)
    {i : Nat} {a : Admission} {guard : LifecycleGuard} (keeps : g.system.Keeps g'.system)
    (member : i ∈ picked) (found : g.system.admissions[i]? = some a)
    (live : g.lifecycle i = .open_ guard)
    (lifecycle : g'.lifecycle = Function.update g.lifecycle i (.dropped guard)) :
    g'.ledger picked a.flowId Lifecycle.trackedLow ≤
        g.progress.estimatedFor a.flowId - a.workUnit.asI64 ∧
      g.progress.estimatedFor a.flowId - a.workUnit.asI64 ≤
        g'.ledger picked a.flowId Lifecycle.trackedHigh := by
  apply tracked.shift debits keeps member found lifecycle
  · rw [live]
    simp only [Lifecycle.trackedLow]
    omega
  · rw [live]
    simp only [Lifecycle.trackedHigh]
    omega

theorem Tracked.continued (tracked : Tracked g picked) (debits : Debits g.system picked)
    (guarded : Guarded g picked) (keeps : g.system.Keeps g'.system) {i : Nat}
    {guard guard' : LifecycleGuard} (live : g.lifecycle i = .open_ guard)
    (lifecycle : g'.lifecycle = Function.update g.lifecycle i (.open_ guard'))
    (same : ∀ f, g'.progress.estimatedFor f = g.progress.estimatedFor f) : Tracked g' picked := by
  obtain ⟨a, found, -, -, member⟩ := guarded i guard (by rw [live]; rfl)
  have between := tracked.shift debits keeps member found lifecycle (n := 0)
    (by rw [live]; simp [Lifecycle.trackedLow]) (by rw [live]; simp [Lifecycle.trackedHigh])
  rw [add_zero] at between
  apply tracked.elsewhere debits keeps member found lifecycle
  · rw [same]
    exact between
  · intro f _
    exact same f

theorem Tracked.opened (tracked : Tracked g picked) (debits : Debits g.system picked)
    {i : Nat} {a : Admission} {ticket : Ticket} (keeps : g.system.Keeps g'.system)
    (found : g.system.admissions[i]? = some a) (phase : a.phase = .admitted ticket)
    (fresh : g.lifecycle i = .none)
    (lifecycle : g'.lifecycle = Function.update g.lifecycle i
      (.open_ (LifecycleGuard.new a.flowId a.workUnit.asI64)))
    (progress : g'.progress = g.progress.register arith a.flowId a.workUnit.asI64)
    (inRange : ∀ n, g'.ledger picked a.flowId Lifecycle.trackedLow ≤ n →
      n ≤ g'.ledger picked a.flowId Lifecycle.trackedHigh → InI64 n) : Tracked g' picked := by
  have member := debits.tickets i a found (by simp [phase, Phase.ticket?])
  have between := tracked.register debits keeps found phase fresh lifecycle
  apply tracked.elsewhere debits keeps member found lifecycle
  · rw [progress, FlowProgressTracker.estimatedFor_register, if_pos rfl,
      arith.store_of_inI64 (inRange _ between.1 between.2)]
    exact between
  · intro f other
    rw [progress, FlowProgressTracker.estimatedFor_register, if_neg other]

theorem Tracked.dropped (tracked : Tracked g picked) (debits : Debits g.system picked)
    (guarded : Guarded g picked) (keeps : g.system.Keeps g'.system) {i : Nat}
    {guard : LifecycleGuard} (live : g.lifecycle i = .open_ guard)
    (lifecycle : g'.lifecycle = Function.update g.lifecycle i (.dropped guard))
    (progress : g'.progress = g.progress.unregister arith guard.flowId guard.estimatedCost
      guard.deliveredTokens)
    (inRange : ∀ n, g'.ledger picked guard.flowId Lifecycle.trackedLow ≤ n →
      n ≤ g'.ledger picked guard.flowId Lifecycle.trackedHigh → InI64 n) : Tracked g' picked := by
  obtain ⟨a, found, flow, cost, member⟩ := guarded i guard (by rw [live]; rfl)
  have between := tracked.unregister debits keeps member found live lifecycle
  rw [← flow, ← cost] at between
  apply tracked.elsewhere debits keeps member found lifecycle
  · rw [← flow, progress]
    rcases g.progress.estimatedFor_unregister arith guard.flowId guard.estimatedCost
      guard.deliveredTokens with exactly | ⟨-, lost⟩
    · rw [exactly, arith.saturatingSub_of_inI64 (inRange _ between.1 between.2)]
      exact between
    · rw [lost]
      exact g'.tracked_signs picked guard.flowId
  · intro f other
    rw [← flow] at other
    rw [progress, FlowProgressTracker.estimatedFor_unregister_other arith _ other]

theorem Tracked.next (tracked : Tracked g (chosen (Machine.events ts)))
    (run : (gateway cfg arith).Exec (Gateway.start cfg) ts g)
    (step : (gateway cfg arith).next g action = some (g', event))
    (fits : TokensFit (ts ++ [⟨g, action, event, g'⟩]) g') :
    Tracked g' (chosen (Machine.events (ts ++ [⟨g, action, event, g'⟩]))) := by
  have debits := debits_of_run run
  have guarded := guarded_of_run run
  have move := GatewayStep.of_next step
  have keeps := move.keeps ⟨_, run⟩
  have change := move.ledgerChange ⟨_, run⟩
  have inRange := fun i a n => fits.tracked_inI64 (run.snoc step) (i := i) (a := a) (n := n)
  rw [Machine.events_append, Machine.events_singleton, chosen_append] at inRange ⊢
  cases move with
  | @openGuard i a ticket found phase fresh =>
      rw [chosen_other (by simp), List.append_nil] at inRange ⊢
      apply tracked.opened debits keeps found phase fresh rfl rfl
      obtain ⟨b, foundB, flow, -⟩ := keeps i a found
      rw [← flow]
      exact fun n => inRange i b n foundB
  | @addDelivered i guard count live positive =>
      rw [chosen_other (by simp), List.append_nil]
      have same := g.progress.estimatedFor_updateDelivered arith guard.flowId count
      exact tracked.continued debits guarded keeps live rfl same
  | @markCompleted i guard live =>
      rw [chosen_other (by simp), List.append_nil]
      exact tracked.continued debits guarded keeps live rfl fun _ => rfl
  | @dropLifecycle i guard live =>
      rw [chosen_other (by simp), List.append_nil] at inRange ⊢
      apply tracked.dropped debits guarded keeps live rfl rfl
      obtain ⟨a, found, flow, -⟩ := guarded i guard (by rw [live]; rfl)
      obtain ⟨b, foundB, flowB, -⟩ := keeps i a found
      rw [flow, ← flowB]
      exact fun n => inRange i b n foundB
  | @request f body unix isTurnBoundary =>
      exact tracked.frame debits guarded keeps change
        (Gateway.request_lifecycle cfg g f body unix isTurnBoundary)
        (Gateway.request_progress cfg g f body unix isTurnBoundary)
  | _ => exact tracked.frame debits guarded keeps change rfl rfl

end

end TinyLlb
