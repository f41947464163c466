import TinyLlb.Gateway.Volume

/-! # Operations that could overflow

`try_select`, the reports, the drop of a lifecycle guard and the progress tracker
add and subtract `i64` values that come from request bodies and weights, without
a check. Such a sum overflows only where the tokens of one flow's requests, or
the weights granted to it while it waits, add up to more than an `i64` holds.
-/

namespace TinyLlb

/-- The flows whose deficit the loop's next call of `try_select` raises. -/
def System.creditedFlows (cfg : Config) (arith : I64Arith) (s : System) : List FlowId :=
  match s.pc with
  | .select cap =>
      if s.inner.outstanding < cap ∧
          TrySelect.firstStarved (s.selectEnv cfg arith cap) s.registry s.inner = none then
        s.inner.rrCursor.filter (TrySelect.credits s.registry s.inner.waiting)
      else []
  | _ => []

/-- The flows whose deficit a step raises. -/
def grantedIn (cfg : GatewayConfig) (arith : I64Arith)
    (tr : Transition Gateway GatewayAction Event) : List FlowId :=
  match tr.action with
  | .sched .trySelect => tr.pre.system.creditedFlows cfg.toConfig arith
  | _ => []

/-- `*deficit_entry += weight_i64` and `permanent + *deficit_entry`. A flow stands
    in the cursor once, so its entry is the one from before the round. -/
def accumulationResults (arith : I64Arith) (s : System) (f : FlowId) : List Int :=
  [s.inner.credit f + (s.flow f).truncWeight,
    (s.flow f).credit + arith.store (s.inner.credit f + (s.flow f).truncWeight)]

/-- `credit - work_unit`. -/
def debitResults (s : System) : Option Event → List Int
  | some (.selected selection _) =>
      [(s.flow selection.flowId).credit - selection.pending.cost]
  | _ => []

/-- `estimated_cost - delivered` and `current + restore_cost`. -/
def restoreResults (arith : I64Arith) (s : System) (guard : LifecycleGuard) : List Int :=
  (if guard.completedNormally = true ∧ guard.deliveredTokens > 0 then
    [guard.estimatedCost - guard.deliveredTokens]
  else []) ++ [(s.flow guard.flowId).credit + guard.restoreCost arith]

/-- What the unchecked `i64` operations of a step come to before they are stored. -/
def i64Results (cfg : GatewayConfig) (arith : I64Arith)
    (tr : Transition Gateway GatewayAction Event) : List Int :=
  match tr.action with
  | .sched .trySelect =>
      (grantedIn cfg arith tr).flatMap (accumulationResults arith tr.pre.system) ++
        debitResults tr.pre.system tr.event
  | .openGuard i =>
      ((tr.pre.system.admissions[i]?).map fun a =>
        tr.pre.progress.estimatedFor a.flowId + a.workUnit.asI64).toList
  | .dropLifecycle i =>
      match tr.pre.lifecycle i with
      | .open_ guard => restoreResults arith tr.pre.system guard
      | _ => []
  | _ => []

/-- The weights granted to a flow since its deficit was last cleared. -/
def granted (cfg : GatewayConfig) (arith : I64Arith) (f : FlowId)
    (ts : List (Transition Gateway GatewayAction Event)) : Int :=
  ts.foldl (fun sum tr =>
    if (tr.post.system.inner.deficit.lookup f).isNone then 0
    else if f ∈ grantedIn cfg arith tr then sum + (tr.pre.system.flow f).truncWeight
    else sum) 0

/-- In every round the weights granted to a flow, and what its requests with a
    negative `max_tokens` are credited, fit an `i64`. -/
def WeightsFit (cfg : GatewayConfig) (arith : I64Arith)
    (ts : List (Transition Gateway GatewayAction Event)) : Prop :=
  ∀ n tr, ts[n]? = some tr → ∀ f ∈ grantedIn cfg arith tr,
    granted cfg arith f (ts.take n) + (tr.pre.system.flow f).truncWeight + tr.pre.gained f ≤ i64Max

section

variable {cfg : Config} {arith : I64Arith} {s s' : System} {action : Action} {event : Option Event}

theorem System.mem_creditedFlows {cap : Nat} (pc : s.pc = .select cap) (inv : RepInv s.inner)
    (under : s.inner.outstanding < cap)
    (calm : TrySelect.firstStarved (s.selectEnv cfg arith cap) s.registry s.inner = none)
    (f : FlowId) :
    f ∈ s.creditedFlows cfg arith ↔ f ∈ s.inner.rrCursor ∧ 0 < (s.flow f).truncWeight := by
  unfold System.creditedFlows
  simp only [pc]
  rw [if_pos ⟨under, calm⟩, List.mem_filter, TrySelect.credits_iff, inv.hasWaiting_iff]
  constructor
  · rintro ⟨member, -, positive⟩
    exact ⟨member, positive⟩
  · rintro ⟨member, positive⟩
    exact ⟨member, member, positive⟩

/-- What a step does to the deficit of a flow. -/
inductive DeficitChange (cfg : Config) (arith : I64Arith) (s : System) (action : Action) (s' : System)
    (f : FlowId) : Prop where
  | cleared (lookup : s'.inner.deficit.lookup f = none)
  | raised (which : action = .trySelect) (credited : f ∈ s.creditedFlows cfg arith)
      (lookup : s'.inner.deficit.lookup f =
        some (arith.store (s.inner.credit f + (s.flow f).truncWeight)))
  | kept (uncredited : action = .trySelect → f ∉ s.creditedFlows cfg arith)
      (lookup : s'.inner.deficit.lookup f = s.inner.deficit.lookup f)

theorem DeficitChange.of_raised {cap : Nat} (pc : s.pc = .select cap) (inv : RepInv s.inner)
    (under : s.inner.outstanding < cap)
    (calm : TrySelect.firstStarved (s.selectEnv cfg arith cap) s.registry s.inner = none) {f : FlowId}
    (lookup : s'.inner.deficit.lookup f =
      TinyLlb.raised (s.selectEnv cfg arith cap) s.registry s.inner f) :
    DeficitChange cfg arith s .trySelect s' f := by
  have credited := System.mem_creditedFlows pc inv under calm f
  unfold TinyLlb.raised at lookup
  split at lookup
  · exact .raised rfl (credited.mpr ‹_›) lookup
  · exact .kept (fun _ member => absurd (credited.mp member) ‹_›) lookup

theorem DeficitChange.of_dropGuard (s : System) (i : Nat) (a : Admission) (pendingId : Option Nat)
    (f : FlowId) : DeficitChange cfg arith s (.dropGuard i) (s.dropGuard i a pendingId) f := by
  cases found : s.inner.waiting.lookup a.flowId with
  | none =>
      apply DeficitChange.kept (by simp)
      change (s.inner.dropGuard a.flowId pendingId).deficit.lookup f = _
      rw [DrrState.dropGuard_of_none found]
  | some queue =>
      cases DrrState.dropGuard_cases found pendingId with
      | inl emptied =>
          by_cases own : f = a.flowId
          · apply DeficitChange.cleared
            change (s.inner.dropGuard a.flowId pendingId).deficit.lookup f = _
            rw [emptied.2, Assoc.lookup_erase, if_pos own]
          · apply DeficitChange.kept (by simp)
            change (s.inner.dropGuard a.flowId pendingId).deficit.lookup f = _
            rw [emptied.2, Assoc.lookup_erase, if_neg own]
      | inr left =>
          apply DeficitChange.kept (by simp)
          change (s.inner.dropGuard a.flowId pendingId).deficit.lookup f = _
          rw [left.2]

theorem Step.deficitChange (inv : SystemInv cfg s) (step : Step cfg arith s action event s')
    (f : FlowId) : DeficitChange cfg arith s action s' f := by
  cases step with
  | @dropGuard i a pendingId => exact .of_dropGuard s i a pendingId f
  | @round cap r pc spec =>
      cases spec with
      | atCap full =>
          refine .kept ?_ rfl
          have exceeded : ¬ s.inner.outstanding < cap := not_lt.mpr full
          simp [System.creditedFlows, pc, exceeded]
      | nobody under empty =>
          refine .kept ?_ rfl
          simp [System.creditedFlows, pc, empty]
      | forced under starved served deficit =>
          refine .kept ?_ (congrArg (AList.lookup f) deficit)
          simp [System.creditedFlows, pc, starved]
      | @regular g p rest t under calm eligible best served deficit =>
          by_cases own : f = g
          · apply DeficitChange.cleared
            exact (deficit f).trans (if_pos own)
          · exact .of_raised pc inv.repInv under calm ((deficit f).trans (if_neg own))
      | barren under some_ calm ineligible flag deficit =>
          exact .of_raised pc inv.repInv under calm (deficit f)
  | closeReceiver which =>
      apply DeficitChange.kept
      · intro selects
        subst selects
        simp at which
      · unfold System.closeReceiver
        split <;> rfl
  | _ => exact .kept (by simp) rfl

end

section

variable {cfg : GatewayConfig} {arith : I64Arith} {g g' : Gateway} {action : GatewayAction}
  {event : Option Event} {ts : List (Transition Gateway GatewayAction Event)} {f : FlowId}

theorem mem_grantedIn {tr : Transition Gateway GatewayAction Event}
    (member : f ∈ grantedIn cfg arith tr) :
    f ∈ tr.pre.system.inner.rrCursor ∧ 0 < (tr.pre.system.flow f).truncWeight := by
  unfold grantedIn System.creditedFlows at member
  split at member
  · split at member
    · split at member
      · rw [List.mem_filter, TrySelect.credits_iff] at member
        exact ⟨member.1, member.2.2⟩
      · cases member
    · cases member
  · cases member

theorem GatewayStep.deficit_cases (reach : (gateway cfg arith).Reachable g)
    (step : GatewayStep cfg arith g action event g') (f : FlowId) :
    g'.system.inner.deficit.lookup f = none ∨
      f ∈ grantedIn cfg arith ⟨g, action, event, g'⟩ ∧
        g'.system.inner.deficit.lookup f =
          some (arith.store (g.system.inner.credit f + (g.system.flow f).truncWeight)) ∨
      f ∉ grantedIn cfg arith ⟨g, action, event, g'⟩ ∧
        g'.system.inner.deficit.lookup f = g.system.inner.deficit.lookup f := by
  cases step with
  | @sched action event s' own step =>
      have inv := SystemInv.reachable (Gateway.reachable reach)
      cases (inv.step_of_next step).deficitChange inv f with
      | cleared lookup => exact .inl lookup
      | raised which credited lookup =>
          subst which
          exact .inr (.inl ⟨credited, lookup⟩)
      | kept uncredited lookup =>
          refine .inr (.inr ⟨?_, lookup⟩)
          cases action with
          | trySelect => exact uncredited rfl
          | _ => simp [grantedIn]
  | request =>
      rw [Gateway.request_system]
      exact .inr (.inr ⟨by simp [grantedIn], rfl⟩)
  | _ => exact .inr (.inr ⟨by simp [grantedIn], rfl⟩)

theorem granted_snoc (tr : Transition Gateway GatewayAction Event) :
    granted cfg arith f (ts ++ [tr]) =
      if (tr.post.system.inner.deficit.lookup f).isNone then 0
      else if f ∈ grantedIn cfg arith tr then
        granted cfg arith f ts + (tr.pre.system.flow f).truncWeight
      else granted cfg arith f ts := by
  rw [granted, List.foldl_append, List.foldl_cons, List.foldl_nil, granted]

/-- Every deficit is what was granted since it was last cleared. -/
def Granted (cfg : GatewayConfig) (arith : I64Arith) (g : Gateway)
    (ts : List (Transition Gateway GatewayAction Event)) : Prop :=
  ∀ f, g.system.inner.credit f = granted cfg arith f ts ∧ 0 ≤ granted cfg arith f ts

theorem Granted.next (holds : Granted cfg arith g ts) (reach : (gateway cfg arith).Reachable g)
    (step : GatewayStep cfg arith g action event g')
    (fits : ∀ f ∈ grantedIn cfg arith ⟨g, action, event, g'⟩,
      granted cfg arith f ts + (g.system.flow f).truncWeight + g.gained f ≤ i64Max) :
    Granted cfg arith g' (ts ++ [⟨g, action, event, g'⟩]) := by
  intro f
  obtain ⟨same, nonneg⟩ := holds f
  rw [granted_snoc]
  unfold DrrState.credit at same ⊢
  rcases step.deficit_cases reach f with cleared | ⟨member, lookup⟩ | ⟨uncredited, lookup⟩
  · rw [cleared]
    exact ⟨rfl, le_rfl⟩
  · have room := fits f member
    have positive : 0 < (g.system.flow f).truncWeight := (mem_grantedIn member).2
    have gained : 0 ≤ g.gained f := Gateway.sumOver_nonneg g.gains_nonneg
    have fits : InI64 (granted cfg arith f ts + (g.system.flow f).truncWeight) := by
      unfold InI64 i64Min i64Max at *
      omega
    rw [lookup, if_neg (by simp), if_pos member, DrrState.credit, same]
    have stored := arith.store_of_inI64 fits
    exact ⟨stored, Int.add_nonneg nonneg (Int.le_of_lt positive)⟩
  · rw [lookup, if_neg uncredited]
    cases found : g.system.inner.deficit.lookup f with
    | none => exact ⟨rfl, le_rfl⟩
    | some deficit =>
        rw [found] at same
        exact ⟨same, nonneg⟩

theorem WeightsFit.before {tr : Transition Gateway GatewayAction Event}
    (weights : WeightsFit cfg arith (ts ++ [tr])) :
    WeightsFit cfg arith ts ∧ ∀ f ∈ grantedIn cfg arith tr,
      granted cfg arith f ts + (tr.pre.system.flow f).truncWeight + tr.pre.gained f ≤ i64Max := by
  constructor
  · intro n tr' found f member
    obtain ⟨inside, -⟩ := List.getElem?_eq_some_iff.mp found
    have room := weights n tr' (Slots.getElem?_append found _) f member
    rwa [List.take_append_of_le_length (Nat.le_of_lt inside)] at room
  · intro f member
    have room := weights ts.length tr List.getElem?_concat_length f member
    rwa [List.take_left] at room

/-- The invariants of a run whose operations have not overflowed. -/
structure Unwrapped (cfg : GatewayConfig) (arith : I64Arith) (g : Gateway)
    (ts : List (Transition Gateway GatewayAction Event)) : Prop where
  balanced : Balanced g (chosen (Machine.events ts))
  tallied : Tallied g ts
  tracked : Tracked g (chosen (Machine.events ts))
  grants : Granted cfg arith g ts

theorem Unwrapped.start (cfg : GatewayConfig) (arith : I64Arith) :
    Unwrapped cfg arith (Gateway.start cfg) [] where
  balanced := Balanced.start cfg
  tallied := fun _ => rfl
  tracked := Tracked.start cfg
  grants := fun _ => ⟨rfl, le_rfl⟩

theorem TokensFit.overrun_inI64 (fits : TokensFit ts g) (tallied : Tallied g ts)
    (run : (gateway cfg arith).Exec (Gateway.start cfg) ts g) {i : Nat} {guard : LifecycleGuard}
    (live : g.lifecycle i = .open_ guard) : InI64 (guard.estimatedCost - guard.deliveredTokens) := by
  obtain ⟨a, found, -, cost, -⟩ := guarded_of_run run i guard (by rw [live]; rfl)
  have bound := fits.delivered run found
  have nonneg := deliveredTo_nonneg run i
  have counted : guard.deliveredTokens = deliveredTo ts i := by
    rw [← tallied i, live]
    rfl
  have range := a.workUnit.asI64_inI64
  rw [cost, counted]
  unfold InI64 i64Min i64Max at *
  omega

theorem LifecycleGuard.restoreCost_of_inI64 (arith : I64Arith) {guard : LifecycleGuard}
    (fits : InI64 (guard.estimatedCost - guard.deliveredTokens)) :
    guard.restoreCost arith = guard.restoreCost .exact := by
  unfold LifecycleGuard.restoreCost
  rw [arith.store_of_inI64 fits, arith.saturatingSub_of_inI64 fits]
  rfl

section Step

variable (unwrapped : Unwrapped cfg arith g ts)
  (run : (gateway cfg arith).Exec (Gateway.start cfg) ts g)
  (step : (gateway cfg arith).next g action = some (g', event))
  (fits : TokensFit (ts ++ [⟨g, action, event, g'⟩]) g')

include unwrapped run step fits

theorem Unwrapped.debit_inI64 {selection : Selection} {forced : Bool}
    (emitted : event = some (.selected selection forced)) :
    InI64 ((g.system.flow selection.flowId).credit - selection.pending.cost) := by
  have move := GatewayStep.of_next step
  have keeps := move.keeps ⟨_, run⟩
  have tallied := unwrapped.tallied.next run step fits
  cases move.ledgerChange ⟨_, run⟩ with
  | selected selection' forced' a emitted' found waits queued lifecycle =>
      rw [emitted] at emitted'
      cases emitted'
      obtain ⟨b, foundB, flow, -⟩ := keeps _ a found
      have range := fits.ledger_inI64 tallied (run.snoc step) foundB
      rw [flow, waits.flow, Machine.events_append, Machine.events_singleton, chosen_append, emitted,
        chosen_selected] at range
      rw [unwrapped.balanced.debit (debits_of_run run) (guarded_of_run run) keeps lifecycle found waits
        queued]
      exact range
  | kept quiet => exact absurd emitted (quiet selection forced)
  | dropped _ _ _ silent | opened _ _ silent | continued _ _ _ silent =>
      rw [silent] at emitted
      cases emitted

theorem Unwrapped.restore_inI64 {i : Nat} {guard : LifecycleGuard}
    (which : action = .dropLifecycle i) (live : g.lifecycle i = .open_ guard) :
    InI64 ((g.system.flow guard.flowId).credit + guard.restoreCost .exact) := by
  have move := GatewayStep.of_next step
  have keeps := move.keeps ⟨_, run⟩
  have tallied := unwrapped.tallied.next run step fits
  obtain ⟨a, found, flow, -⟩ := guarded_of_run run i guard (by rw [live]; rfl)
  obtain ⟨b, foundB, flowB, -⟩ := keeps i a found
  have range := fits.ledger_inI64 tallied (run.snoc step) foundB
  rw [flowB, ← flow, Machine.events_append, Machine.events_singleton, chosen_append] at range
  subst which
  cases move with
  | @dropLifecycle i guard' live' =>
      rw [live] at live'
      cases live'
      rw [chosen_other (by simp), List.append_nil] at range
      rw [unwrapped.balanced.restore (debits_of_run run) (guarded_of_run run) keeps live rfl]
      exact range

theorem Unwrapped.exactCredit : ExactCredit arith g action event where
  debit := by
    intro selection forced emitted
    exact arith.store_of_inI64 (unwrapped.debit_inI64 run step fits emitted)
  restore := by
    intro i guard which live
    have overrun := (fits.before run step).overrun_inI64 unwrapped.tallied run live
    rw [guard.restoreCost_of_inI64 arith overrun]
    exact arith.store_of_inI64 (unwrapped.restore_inI64 run step fits which live)

theorem Unwrapped.next (weights : ∀ f ∈ grantedIn cfg arith ⟨g, action, event, g'⟩,
      granted cfg arith f ts + (g.system.flow f).truncWeight + g.gained f ≤ i64Max) :
    Unwrapped cfg arith g' (ts ++ [⟨g, action, event, g'⟩]) where
  balanced := by
    rw [Machine.events_append, Machine.events_singleton, chosen_append]
    exact unwrapped.balanced.next (guarded_of_run run) (debits_of_run run) ⟨_, run⟩
      (GatewayStep.of_next step) (unwrapped.exactCredit run step fits)
  tallied := unwrapped.tallied.next run step fits
  tracked := unwrapped.tracked.next run step fits
  grants := unwrapped.grants.next ⟨_, run⟩ (GatewayStep.of_next step) weights

theorem Unwrapped.register_inI64 {i : Nat} {a : Admission} (which : action = .openGuard i)
    (found : g.system.admissions[i]? = some a) :
    InI64 (g.progress.estimatedFor a.flowId + a.workUnit.asI64) := by
  have move := GatewayStep.of_next step
  have keeps := move.keeps ⟨_, run⟩
  obtain ⟨b, foundB, flow, -⟩ := keeps i a found
  have inRange := fun n => fits.tracked_inI64 (run.snoc step) foundB (n := n)
  rw [flow, Machine.events_append, Machine.events_singleton, chosen_append] at inRange
  subst which
  cases move with
  | @openGuard i a' ticket found' phase fresh =>
      rw [found] at found'
      cases found'
      rw [chosen_other (by simp), List.append_nil] at inRange
      have between := unwrapped.tracked.register (debits_of_run run) keeps found phase fresh rfl
      exact inRange _ between.1 between.2

theorem Unwrapped.accumulation_inI64 {f : FlowId}
    (member : f ∈ grantedIn cfg arith ⟨g, action, event, g'⟩)
    (room : granted cfg arith f ts + (g.system.flow f).truncWeight + g.gained f ≤ i64Max) :
    ∀ n ∈ accumulationResults arith g.system f, InI64 n := by
  obtain ⟨inCursor, positive⟩ := mem_grantedIn member
  change f ∈ g.system.inner.rrCursor at inCursor
  change 0 < (g.system.flow f).truncWeight at positive
  obtain ⟨deficit, nonneg⟩ := unwrapped.grants f
  have reached := Gateway.reachable (g := g) ⟨_, run⟩
  -- a flow in the cursor has a request, whose admission answers for its tokens
  have waits := (SystemInv.reachable reached).repInv.mem_cursor_iff.mp inCursor
  obtain ⟨p, queued⟩ := List.exists_mem_of_ne_nil _ waits
  obtain ⟨a, found, mine⟩ := (Links.reachable reached).queued f p queued
  have total := fits.before run step a (List.mem_of_getElem? found)
  rw [mine.flow] at total
  obtain ⟨high, low⟩ := unwrapped.tallied.ledger_bounds run f
  have balance := unwrapped.balanced f
  have gained : 0 ≤ g.gained f := Gateway.sumOver_nonneg g.gains_nonneg
  have raised : InI64 (g.system.inner.credit f + (g.system.flow f).truncWeight) := by
    unfold InI64 i64Min i64Max at *
    omega
  intro n result
  unfold accumulationResults at result
  rw [arith.store_of_inI64 raised] at result
  rcases List.mem_cons.mp result with rfl | last
  · exact raised
  · obtain rfl := List.mem_singleton.mp last
    unfold InI64 i64Min i64Max at *
    omega

/-- No operation of the step overflows. -/
theorem Unwrapped.results_inI64 (weights : ∀ f ∈ grantedIn cfg arith ⟨g, action, event, g'⟩,
      granted cfg arith f ts + (g.system.flow f).truncWeight + g.gained f ≤ i64Max) :
    ∀ n ∈ i64Results cfg arith ⟨g, action, event, g'⟩, InI64 n := by
  intro n result
  unfold i64Results at result
  split at result
  · rcases List.mem_append.mp result with accumulated | debited
    · obtain ⟨f, member, result⟩ := List.mem_flatMap.mp accumulated
      exact unwrapped.accumulation_inI64 run step fits member (weights f member) n result
    · cases event with
      | none => cases debited
      | some e =>
          cases e with
          | selected selection forced =>
              obtain rfl := List.mem_singleton.mp debited
              exact unwrapped.debit_inI64 run step fits rfl
          | _ => cases debited
  · rename_i i which
    rw [Option.mem_toList, Option.map_eq_some_iff] at result
    obtain ⟨a, found, rfl⟩ := result
    exact unwrapped.register_inI64 run step fits which found
  · rename_i i which
    split at result
    · rename_i guard live
      have overrun := (fits.before run step).overrun_inI64 unwrapped.tallied run live
      rcases List.mem_append.mp result with difference | last
      · split at difference
        · obtain rfl := List.mem_singleton.mp difference
          exact overrun
        · cases difference
      · obtain rfl := List.mem_singleton.mp last
        rw [guard.restoreCost_of_inI64 arith overrun]
        exact unwrapped.restore_inI64 run step fits which live
    · cases result
  · cases result

end Step

end

/-- No listed operation overflows in a run whose requests and granted weights add
    up, flow by flow, to what an `i64` holds. -/
theorem no_i64_overflow (cfg : GatewayConfig) (arith : I64Arith) {ts g}
    (run : (gateway cfg arith).Exec (Gateway.start cfg) ts g) (tokens : TokensFit ts g)
    (weights : WeightsFit cfg arith ts) :
    ∀ tr ∈ ts, ∀ n ∈ i64Results cfg arith tr, InI64 n := by
  have whole : Unwrapped cfg arith g ts ∧ ∀ tr ∈ ts, ∀ n ∈ i64Results cfg arith tr, InI64 n := by
    induction run with
    | nil => exact ⟨Unwrapped.start cfg arith, by simp⟩
    | snoc before step ih =>
        obtain ⟨earlier, now⟩ := weights.before
        obtain ⟨unwrapped, results⟩ := ih (tokens.before before step) earlier
        refine ⟨unwrapped.next before step tokens now, ?_⟩
        intro tr member
        cases List.mem_append.mp member with
        | inl old => exact results tr old
        | inr last =>
            obtain rfl := List.mem_singleton.mp last
            exact unwrapped.results_inI64 before step tokens now
  exact whole.2

/-- Two requests of one token, the first with an overrun. -/
theorem no_i64_overflow_small :
    let m := gateway .default .wrapping
    let actions := GatewayAction.serve [.wakeNotified] ⟨"a"⟩ 1 0 ++
      [.addDelivered 0 3, .markCompleted 0, .dropLifecycle 0] ++ GatewayAction.serve [] ⟨"a"⟩ 1 1
    (m.trace actions).length = 30 ∧
      ∀ tr ∈ m.trace actions, ∀ n ∈ i64Results .default .wrapping tr, InI64 n := by
  intro m actions
  have steps : (m.trace actions).length = 30 := by decide +kernel
  refine ⟨steps, ?_⟩
  apply no_i64_overflow .default .wrapping (m.exec_after actions)
  · unfold TokensFit
    decide +kernel
  · intro n tr found
    have checked : ∀ n < 30, ∀ tr ∈ (m.trace actions)[n]?, ∀ f ∈ grantedIn .default .wrapping tr,
        granted .default .wrapping f ((m.trace actions).take n) +
          (tr.pre.system.flow f).truncWeight + tr.pre.gained f ≤ i64Max := by
      decide +kernel
    obtain ⟨bound, -⟩ := List.getElem?_eq_some_iff.mp found
    exact checked n (by omega) tr found

/-- A `max_tokens` far below zero saturates to the least `i64`, which cannot be
    taken from a credit of zero. -/
theorem i64_overflow_negative_tokens :
    let m := gateway .default .wrapping
    let actions := GatewayAction.serve [.wakeNotified] ⟨"a"⟩ (-10000000000000000000) 0
    m.Exec m.start (m.trace actions) (m.after actions) ∧
      ∃ tr ∈ m.trace actions, tr.action = .sched .trySelect ∧
        9223372036854775808 ∈ i64Results .default .wrapping tr ∧ ¬ InI64 9223372036854775808 := by
  intro m actions
  exact ⟨m.exec_after actions, by decide +kernel⟩

end TinyLlb
