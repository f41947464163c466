import TinyLlb.Runtime.QueueDepth

/-! # The depth gauge

Every guard that is made, consumed or dropped sets the `llm_queue_depth` gauge of
its flow's label to the flow's own new depth, in an access of its own that
follows the one to the depth. Ephemeral flows share one label, and so does a flow
that is named like it. The gauge is the sum over a label just as long as no two
flows of the label wait at once when a guard comes or goes, and no other guard
of the label comes or goes before it has set the gauge.

The metered scheduler is the scheduler with the gauge beside it; the gauge is
written by the guards and read by nobody. What else a guard does is one step with
its access to the depth.
-/

namespace TinyLlb

variable {cfg : Config} {arith : I64Arith} {s s' : System} {action : Action} {event : Option Event}

namespace FlowId

/-- `starts_with("ephemeral-")`. -/
def isEphemeral (f : FlowId) : Bool := "ephemeral-".toList.isPrefixOf f.name.toList

def metricLabel (f : FlowId) : String := if f.isEphemeral then "ephemeral" else f.name

end FlowId

/-- The call an action is a step of. -/
def Action.call? : Action → Option Nat
  | .createGuard i | .enqueue i | .stamp i | .notify i | .receive i | .cancel i | .timeout i
  | .dropGuard i | .dropTicket i | .wake i => some i
  | _ => none

/-- What a guard is about to set: the label of the flow to the value. -/
structure DepthReport where
  flowId : FlowId
  value : Nat
  deriving DecidableEq

namespace System

/-- The call whose guard an action makes, consumes or drops, and its report: what
    `fetch_add` and `fetch_sub` return, plus one and saturating minus one. -/
def depthReport (s : System) : Action → Option (Nat × DepthReport)
  | .createGuard i => (s.flowOf i).map fun f => (i, ⟨f, ((s.flow f).depth + 1).toNat⟩)
  | .receive i => (s.flowOf i).map fun f => (i, ⟨f, (s.flow f).depth.toNat - 1⟩)
  | .dropGuard i => (s.flowOf i).map fun f => (i, ⟨f, (s.flow f).depth.toNat - 1⟩)
  | _ => none

/-- The depth of a flow, counted for its own label only. -/
def labelled (label : String) (f : FlowId) (flow : Flow) : Nat :=
  if f.metricLabel = label then flow.depth.toNat else 0

/-- The sum of the depths of all flows with a label. -/
def labelDepth (s : System) (label : String) : Nat := Assoc.total (labelled label) s.registry.flows

end System

structure Metered where
  system : System
  /-- The calls whose guard stands between its two accesses. -/
  reports : Assoc Nat DepthReport
  /-- `llm_queue_depth` by label; a label that was never set reads zero. -/
  queueDepth : String → Nat

inductive MeteredAction where
  | schedule (action : Action)
  /-- The guard of call `i` sets the gauge. -/
  | setGauge (i : Nat)

namespace Metered

/-- The call of an action has its guard between the two accesses. -/
def busy (m : Metered) (action : Action) : Bool :=
  action.call?.any fun i => (m.reports.lookup i).isSome

def addReport (m : Metered) (report : Option (Nat × DepthReport)) : Assoc Nat DepthReport :=
  match report with
  | some (i, report) => m.reports.insert i report
  | none => m.reports

end Metered

def nextMetered (cfg : Config) (arith : I64Arith) (m : Metered) :
    MeteredAction → Option (Metered × Option Event)
  | .schedule action =>
      if m.busy action then none
      else (nextSystem cfg arith m.system action).map fun next =>
        (⟨next.1, m.addReport (m.system.depthReport action), m.queueDepth⟩, next.2)
  | .setGauge i => (m.reports.lookup i).map fun report =>
      (⟨m.system, m.reports.erase i,
        Function.update m.queueDepth report.flowId.metricLabel report.value⟩, none)

def meteredScheduler (cfg : Config) (arith : I64Arith) : Machine Metered MeteredAction Event :=
  { start := ⟨System.start cfg, ∅, fun _ => 0⟩, next := nextMetered cfg arith }

/-- The gauge of every label is the sum of the depths under it; where a guard
    stands between its accesses, it is about to be set to that sum. -/
structure Metered.GaugeAgrees (m : Metered) : Prop where
  shown : ∀ label, (∀ i report, m.reports.lookup i = some report → report.flowId.metricLabel ≠ label) →
    m.queueDepth label = m.system.labelDepth label
  due : ∀ i report, m.reports.lookup i = some report →
    report.value = m.system.labelDepth report.flowId.metricLabel

/-- When a guard comes or goes no other flow of its label waits and no other
    guard of the label stands between its accesses, and a guard that goes finds
    its depth above zero. -/
structure AloneUnderLabel (m : Metered) (action : Action) : Prop where
  others : ∀ i f, action.opens? = some i ∨ action.closes? = some i → m.system.flowOf i = some f →
    ∀ g, g ≠ f → g.metricLabel = f.metricLabel → (m.system.flow g).depth = 0
  apart : ∀ i f, action.opens? = some i ∨ action.closes? = some i → m.system.flowOf i = some f →
    ∀ j report, m.reports.lookup j = some report → report.flowId.metricLabel ≠ f.metricLabel
  counted : ∀ i f, action.closes? = some i → m.system.flowOf i = some f →
    (m.system.flow f).depth ≠ 0

namespace System

theorem worth_labelled (s : System) (label : String) (f : FlowId) :
    Assoc.worth (labelled label) s.registry.flows f =
      if f.metricLabel = label then (s.flow f).depth.toNat else 0 := by
  unfold Assoc.worth flow FlowRegistry.getOrCreate labelled
  cases s.registry.flows.lookup f <;> simp [Flow.new]

theorem labelDepth_congr (same : ∀ f, (s'.flow f).depth = (s.flow f).depth) (label : String) :
    s'.labelDepth label = s.labelDepth label := by
  apply Assoc.total_congr_worth
  intro f
  rw [worth_labelled, worth_labelled, same f]

theorem labelDepth_update {f : FlowId} (same : ∀ g, g ≠ f → (s'.flow g).depth = (s.flow g).depth) :
    s'.labelDepth f.metricLabel + (s.flow f).depth.toNat =
      s.labelDepth f.metricLabel + (s'.flow f).depth.toNat := by
  have worth : ∀ g, g ≠ f →
      Assoc.worth (labelled f.metricLabel) s'.registry.flows g =
        Assoc.worth (labelled f.metricLabel) s.registry.flows g := by
    intro g other
    rw [worth_labelled, worth_labelled, same g other]
  have moved := Assoc.total_update worth
  rw [worth_labelled, worth_labelled, if_pos rfl, if_pos rfl] at moved
  exact moved

theorem labelDepth_other {f : FlowId} (same : ∀ g, g ≠ f → (s'.flow g).depth = (s.flow g).depth)
    {label : String} (other : label ≠ f.metricLabel) :
    s'.labelDepth label = s.labelDepth label := by
  apply Assoc.total_congr_worth
  intro g
  rw [worth_labelled, worth_labelled]
  by_cases here : g.metricLabel = label
  · have apart : g ≠ f := by
      rintro rfl
      exact other here.symm
    rw [same g apart]
  · simp [here]

theorem labelDepth_eq_iff (s : System) (f : FlowId) :
    s.labelDepth f.metricLabel = (s.flow f).depth.toNat ↔
      ∀ g, g ≠ f → g.metricLabel = f.metricLabel → (s.flow g).depth = 0 := by
  have alone : Assoc.total (labelled f.metricLabel) s.registry.flows =
      Assoc.worth (labelled f.metricLabel) s.registry.flows f ↔ _ := Assoc.total_eq_worth_iff
  rw [worth_labelled, if_pos rfl] at alone
  apply alone.trans
  constructor
  · intro zero g other shared
    have depth := zero g other
    rw [worth_labelled, if_pos shared] at depth
    exact UInt32.toNat_inj.mp depth
  · intro zero g other
    rw [worth_labelled]
    split
    · rw [zero g other ‹_›]
      rfl
    · rfl

end System

theorem System.depthReport_opens {i : Nat} {f : FlowId} (opens : action.opens? = some i)
    (flow : s.flowOf i = some f) :
    s.depthReport action = some (i, ⟨f, ((s.flow f).depth + 1).toNat⟩) := by
  cases action with
  | createGuard j =>
      obtain rfl := Option.some.inj opens
      simp only [System.depthReport, flow, Option.map_some]
  | _ => cases opens

theorem System.depthReport_closes {i : Nat} {f : FlowId} (closes : action.closes? = some i)
    (flow : s.flowOf i = some f) :
    s.depthReport action = some (i, ⟨f, (s.flow f).depth.toNat - 1⟩) := by
  cases action with
  | receive j | dropGuard j =>
      obtain rfl := Option.some.inj closes
      simp only [System.depthReport, flow, Option.map_some]
  | _ => cases closes

theorem System.depthReport_other (opens : action.opens? = none) (closes : action.closes? = none) :
    s.depthReport action = none := by
  cases action with
  | createGuard i => cases opens
  | receive i | dropGuard i => cases closes
  | _ => rfl

theorem Action.call?_of_opens {i : Nat} (opens : action.opens? = some i) : action.call? = some i := by
  cases action with
  | createGuard j => exact opens
  | _ => cases opens

theorem Action.call?_of_closes {i : Nat} (closes : action.closes? = some i) :
    action.call? = some i := by
  cases action with
  | receive j | dropGuard j => exact closes
  | _ => cases closes

theorem Metered.reports_of_idle {m : Metered} {i : Nat} (idle : m.busy action = false)
    (call : action.call? = some i) : m.reports.lookup i = none := by
  simpa [Metered.busy, call] using idle

/-- Where a guard has changed its flow's depth, the gauge is still right where
    the value to be set is and the guard is the only one of its label. -/
theorem Metered.gaugeAgrees_report_iff {m m' : Metered} (agrees : m.GaugeAgrees) {i : Nat}
    {f : FlowId} {value : Nat} (idle : m.reports.lookup i = none)
    (same : ∀ g, g ≠ f → (m'.system.flow g).depth = (m.system.flow g).depth)
    (moved : (m'.system.flow f).depth ≠ (m.system.flow f).depth)
    (reports : m'.reports = m.reports.insert i ⟨f, value⟩)
    (gauge : m'.queueDepth = m.queueDepth) :
    m'.GaugeAgrees ↔ value = m'.system.labelDepth f.metricLabel ∧
      ∀ j report, m.reports.lookup j = some report → report.flowId.metricLabel ≠ f.metricLabel := by
  have here : m'.reports.lookup i = some ⟨f, value⟩ := by
    rw [reports, Assoc.lookup_insert, if_pos rfl]
  have kept : ∀ j, j ≠ i → m'.reports.lookup j = m.reports.lookup j := by
    intro j apart
    rw [reports, Assoc.lookup_insert, if_neg apart]
  have elsewhere : ∀ j report, m.reports.lookup j = some report → j ≠ i := by
    rintro j report found rfl
    simp [idle] at found
  constructor
  · intro agrees'
    refine ⟨agrees'.due i _ here, ?_⟩
    intro j report found shared
    -- the other guard is still about to set the sum from before
    have due := agrees.due j report found
    have due' := agrees'.due j report ((kept j (elsewhere j report found)).trans found)
    have sums := System.labelDepth_update same
    rw [← shared, ← due, ← due'] at sums
    exact moved (UInt32.toNat_inj.mp (by omega))
  · rintro ⟨right, apart⟩
    constructor
    · intro label free
      have other : label ≠ f.metricLabel := (free i _ here).symm
      rw [gauge, System.labelDepth_other same other]
      apply agrees.shown
      intro j report found
      exact free j report ((kept j (elsewhere j report found)).trans found)
    · intro j report found
      by_cases which : j = i
      · subst j
        obtain rfl := Option.some.inj (here.symm.trans found)
        exact right
      · rw [kept j which] at found
        rw [System.labelDepth_other same (apart j report found)]
        exact agrees.due j report found

/-- What a guard that goes reports is its label's new sum where it was counted
    and no other flow of the label waits. -/
theorem System.labelDepth_close {f : FlowId}
    (same : ∀ g, g ≠ f → (s'.flow g).depth = (s.flow g).depth)
    (lower : (s'.flow f).depth = (s.flow f).depth - 1) :
    (s.flow f).depth.toNat - 1 = s'.labelDepth f.metricLabel ↔
      s.labelDepth f.metricLabel = (s.flow f).depth.toNat ∧ (s.flow f).depth ≠ 0 := by
  have moved := System.labelDepth_update same
  by_cases zero : (s.flow f).depth = 0
  · -- the counter wraps to its greatest value and the gauge stays at zero
    have wrapped : (s'.flow f).depth.toNat = 4294967295 := by rw [lower, zero]; rfl
    rw [zero, UInt32.toNat_zero, wrapped] at moved
    simp only [zero, UInt32.toNat_zero, ne_eq, not_true, and_false, iff_false]
    omega
  · have positive : 1 ≤ (s.flow f).depth := by
      rw [UInt32.le_iff_toNat_le, UInt32.toNat_one]
      have nonzero : (s.flow f).depth.toNat ≠ 0 := fun h => zero (UInt32.toNat_inj.mp h)
      omega
    have bound := UInt32.le_iff_toNat_le.mp positive
    rw [lower, UInt32.toNat_sub_of_le _ _ positive] at moved
    rw [UInt32.toNat_one] at moved bound
    simp only [ne_eq, zero, not_false_eq_true, and_true]
    omega

namespace AloneUnderLabel

variable {m : Metered} {i : Nat} {f : FlowId}

theorem iff_of_opens (opens : action.opens? = some i) (other : action.closes? = none)
    (flow : m.system.flowOf i = some f) :
    AloneUnderLabel m action ↔
      (∀ g, g ≠ f → g.metricLabel = f.metricLabel → (m.system.flow g).depth = 0) ∧
        ∀ j report, m.reports.lookup j = some report → report.flowId.metricLabel ≠ f.metricLabel := by
  constructor
  · intro alone
    exact ⟨alone.others i f (.inl opens) flow, alone.apart i f (.inl opens) flow⟩
  · rintro ⟨others, apart⟩
    have unique : ∀ j g, action.opens? = some j ∨ action.closes? = some j →
        m.system.flowOf j = some g → g = f := by
      intro j g touched flow'
      simp only [opens, other, reduceCtorEq, or_false, Option.some.injEq] at touched
      subst j
      exact Option.some.inj (flow'.symm.trans flow)
    constructor
    · intro j g touched flow'
      rw [unique j g touched flow']
      exact others
    · intro j g touched flow'
      rw [unique j g touched flow']
      exact apart
    · intro j g closes
      simp [other] at closes

theorem iff_of_closes (closes : action.closes? = some i) (other : action.opens? = none)
    (flow : m.system.flowOf i = some f) :
    AloneUnderLabel m action ↔
      ((∀ g, g ≠ f → g.metricLabel = f.metricLabel → (m.system.flow g).depth = 0) ∧
        (m.system.flow f).depth ≠ 0) ∧
        ∀ j report, m.reports.lookup j = some report → report.flowId.metricLabel ≠ f.metricLabel := by
  constructor
  · intro alone
    exact ⟨⟨alone.others i f (.inr closes) flow, alone.counted i f closes flow⟩,
      alone.apart i f (.inr closes) flow⟩
  · rintro ⟨⟨others, counted⟩, apart⟩
    have unique : ∀ j g, action.closes? = some j → m.system.flowOf j = some g → g = f := by
      intro j g touched flow'
      rw [closes] at touched
      obtain rfl := Option.some.inj touched
      exact Option.some.inj (flow'.symm.trans flow)
    constructor
    · intro j g touched flow'
      simp only [other, reduceCtorEq, false_or] at touched
      rw [unique j g touched flow']
      exact others
    · intro j g touched flow'
      simp only [other, reduceCtorEq, false_or] at touched
      rw [unique j g touched flow']
      exact apart
    · intro j g touched flow'
      rw [unique j g touched flow']
      exact counted

theorem of_other (opens : action.opens? = none) (closes : action.closes? = none) :
    AloneUnderLabel m action := by
  constructor
  · intro j g touched
    simp [opens, closes] at touched
  · intro j g touched
    simp [opens, closes] at touched
  · intro j g touched
    simp [closes] at touched

end AloneUnderLabel

/-- One step of the scheduler keeps the gauge right exactly when its guard is alone. -/
theorem gaugeAgrees_schedule {m m' : Metered} (agrees : m.GaugeAgrees) (idle : m.busy action = false)
    (step : Step cfg arith m.system action event m'.system)
    (reports : m'.reports = m.addReport (m.system.depthReport action))
    (gauge : m'.queueDepth = m.queueDepth) : m'.GaugeAgrees ↔ AloneUnderLabel m action := by
  cases step.guardChange with
  | opened i f which other flow before after flows depth queue =>
      have same : ∀ g, g ≠ f → (m'.system.flow g).depth = (m.system.flow g).depth :=
        fun g apart => (depth g).trans (if_neg apart)
      have raise : (m'.system.flow f).depth = (m.system.flow f).depth + 1 :=
        (depth f).trans (if_pos rfl)
      have moved : (m'.system.flow f).depth ≠ (m.system.flow f).depth := by
        rw [raise]
        simp
      have sums := System.labelDepth_update same
      rw [System.depthReport_opens which flow, ← raise] at reports
      have right : (m'.system.flow f).depth.toNat = m'.system.labelDepth f.metricLabel ↔
          m.system.labelDepth f.metricLabel = (m.system.flow f).depth.toNat := by omega
      have free := Metered.reports_of_idle idle (Action.call?_of_opens which)
      rw [Metered.gaugeAgrees_report_iff agrees free same moved reports gauge, right,
        System.labelDepth_eq_iff, AloneUnderLabel.iff_of_opens which other flow]
  | closed i f which other flow before after flows depth queue =>
      have same : ∀ g, g ≠ f → (m'.system.flow g).depth = (m.system.flow g).depth :=
        fun g apart => (depth g).trans (if_neg apart)
      have lower : (m'.system.flow f).depth = (m.system.flow f).depth - 1 :=
        (depth f).trans (if_pos rfl)
      have moved : (m'.system.flow f).depth ≠ (m.system.flow f).depth := by
        intro fixed
        have back := UInt32.sub_add_cancel (m.system.flow f).depth 1
        rw [← lower, fixed] at back
        simp at back
      rw [System.depthReport_closes which flow] at reports
      have free := Metered.reports_of_idle idle (Action.call?_of_closes which)
      rw [Metered.gaugeAgrees_report_iff agrees free same moved reports gauge,
        System.labelDepth_close same lower, System.labelDepth_eq_iff,
        AloneUnderLabel.iff_of_closes which other flow]
  | kept opens closes guards flows depth queue =>
      rw [System.depthReport_other opens closes] at reports
      have kept : m'.reports = m.reports := reports
      refine iff_of_true ?_ (AloneUnderLabel.of_other opens closes)
      constructor
      · intro label free
        rw [gauge, System.labelDepth_congr depth]
        rw [kept] at free
        exact agrees.shown label free
      · intro i report found
        rw [kept] at found
        rw [System.labelDepth_congr depth]
        exact agrees.due i report found

theorem gaugeAgrees_setGauge {m m' : Metered} (agrees : m.GaugeAgrees) {i : Nat}
    {report : DepthReport} (found : m.reports.lookup i = some report) (system : m'.system = m.system)
    (reports : m'.reports = m.reports.erase i)
    (gauge : m'.queueDepth =
      Function.update m.queueDepth report.flowId.metricLabel report.value) : m'.GaugeAgrees := by
  constructor
  · intro label free
    rw [gauge, system]
    by_cases here : label = report.flowId.metricLabel
    · rw [here, Function.update_self]
      exact agrees.due i report found
    · rw [Function.update_of_ne here]
      apply agrees.shown
      intro j other there
      by_cases which : j = i
      · subst j
        obtain rfl := Option.some.inj (found.symm.trans there)
        exact fun label => here label.symm
      · apply free j other
        rw [reports, Assoc.lookup_erase, if_neg which]
        exact there
  · intro j other there
    rw [reports, Assoc.lookup_erase] at there
    split at there
    · cases there
    · rw [system]
      exact agrees.due j other there

/-- What a step of the metered scheduler can do. -/
inductive MeteredStep (cfg : Config) (arith : I64Arith) (m : Metered) :
    MeteredAction → Option Event → Metered → Prop where
  | schedule {action : Action} {event : Option Event} {s : System} (idle : m.busy action = false)
      (moved : nextSystem cfg arith m.system action = some (s, event)) :
      MeteredStep cfg arith m (.schedule action) event
        ⟨s, m.addReport (m.system.depthReport action), m.queueDepth⟩
  | setGauge {i : Nat} {report : DepthReport} (found : m.reports.lookup i = some report) :
      MeteredStep cfg arith m (.setGauge i) none
        ⟨m.system, m.reports.erase i,
          Function.update m.queueDepth report.flowId.metricLabel report.value⟩

theorem meteredStep_of_next {m m' : Metered} {action : MeteredAction}
    (h : nextMetered cfg arith m action = some (m', event)) :
    MeteredStep cfg arith m action event m' := by
  cases action with
  | schedule action =>
      simp only [nextMetered] at h
      split at h
      · cases h
      · rename_i idle
        obtain ⟨⟨s, e⟩, moved, same⟩ := Option.map_eq_some_iff.mp h
        cases same
        exact .schedule (by simpa using idle) moved
  | setGauge i =>
      obtain ⟨report, found, same⟩ := Option.map_eq_some_iff.mp h
      cases same
      exact .setGauge found

/-- The system of a metered run is reached by the scheduler alone. -/
theorem Metered.reachable {m : Metered} (reach : (meteredScheduler cfg arith).Reachable m) :
    (scheduler cfg arith).Reachable m.system := by
  apply reach.project Metered.system rfl
  intro v a w e step
  cases meteredStep_of_next step with
  | schedule idle moved => exact ⟨_, Machine.Exec.single moved, Machine.events_singleton _⟩
  | setGauge found => exact ⟨[], .nil, rfl⟩

theorem gaugeAgrees_step {m m' : Metered} {action : MeteredAction} (agrees : m.GaugeAgrees)
    (inv : SystemInv cfg m.system) (step : MeteredStep cfg arith m action event m') :
    m'.GaugeAgrees ↔ ∀ inner, action = .schedule inner → AloneUnderLabel m inner := by
  cases step with
  | @schedule inner event s idle moved =>
      have guard : Metered.GaugeAgrees ⟨s, m.addReport (m.system.depthReport inner), m.queueDepth⟩ ↔
          AloneUnderLabel m inner :=
        gaugeAgrees_schedule agrees idle (inv.step_of_next moved) rfl rfl
      rw [guard]
      constructor
      · rintro alone _ ⟨⟩
        exact alone
      · intro alone
        exact alone inner rfl
  | setGauge found =>
      refine iff_of_true (gaugeAgrees_setGauge agrees found rfl rfl rfl) ?_
      rintro _ ⟨⟩

/-- Along a run the gauge of every label is the sum of its flows' depths in every
    state exactly when every guard that comes or goes is alone under its label. -/
theorem depth_gauge (cfg : Config) (arith : I64Arith) {ts m}
    (run : (meteredScheduler cfg arith).Exec (meteredScheduler cfg arith).start ts m) :
    (∀ tr ∈ ts, tr.post.GaugeAgrees) ↔
      ∀ tr ∈ ts, ∀ action, tr.action = .schedule action → AloneUnderLabel tr.pre action := by
  induction run with
  | nil => simp
  | @snoc ts v a w e before step ih =>
      have moved := meteredStep_of_next step
      have inv := SystemInv.reachable (Metered.reachable ⟨ts, before⟩)
      have last : (∀ tr ∈ ts, tr.post.GaugeAgrees) → v.GaugeAgrees := by
        intro posts
        cases before with
        | nil =>
            refine ⟨fun label _ => rfl, ?_⟩
            intro i report found
            cases found
        | snoc => exact posts _ (List.mem_append_right _ List.mem_cons_self)
      simp only [List.forall_mem_append, List.forall_mem_singleton]
      constructor
      · rintro ⟨posts, agrees⟩
        exact ⟨ih.mp posts, (gaugeAgrees_step (last posts) inv moved).mp agrees⟩
      · rintro ⟨alone, also⟩
        have posts := ih.mpr alone
        exact ⟨posts, (gaugeAgrees_step (last posts) inv moved).mpr also⟩

/-- A named and an ephemeral flow wait together, and the named one gives up. -/
theorem depth_gauge_two_labels :
    let m := meteredScheduler .default .wrapping
    let ts := m.trace
      [.schedule (.arrive ⟨"a"⟩ (.fin 1)), .schedule (.createGuard 0),
        .schedule (.arrive ⟨"ephemeral-1"⟩ (.fin 1)), .schedule (.createGuard 1), .setGauge 0,
        .setGauge 1, .schedule (.cancel 0), .schedule (.dropGuard 0), .setGauge 0]
    ts.length = 9 ∧ ((∀ tr ∈ ts, tr.post.GaugeAgrees) ↔
      ∀ tr ∈ ts, ∀ action, tr.action = .schedule action → AloneUnderLabel tr.pre action) := by
  exact ⟨by decide +kernel, depth_gauge .default .wrapping (Machine.exec_after _ _)⟩

/-- Two ephemeral flows wait and the gauge of their label shows one request. -/
theorem depth_gauge_ephemeral :
    let m := meteredScheduler .default .wrapping
    let s := m.after
      [.schedule (.arrive ⟨"ephemeral-1"⟩ (.fin 1)), .schedule (.createGuard 0), .setGauge 0,
        .schedule (.arrive ⟨"ephemeral-2"⟩ (.fin 1)), .schedule (.createGuard 1), .setGauge 1]
    m.Reachable s ∧ s.reports.entries = [] ∧ s.queueDepth "ephemeral" = 1 ∧
      s.system.labelDepth "ephemeral" = 2 ∧ ¬ s.GaugeAgrees := by
  have settled : ∀ s : Metered, s.reports.entries = [] → s.GaugeAgrees →
      s.queueDepth "ephemeral" = s.system.labelDepth "ephemeral" := by
    intro s empty agrees
    apply agrees.shown
    intro i report found
    simp [AList.lookup, empty] at found
  refine ⟨Machine.reachable_after _ _, by decide +kernel, by decide +kernel, by decide +kernel, ?_⟩
  intro agrees
  have shown := settled _ (by decide +kernel) agrees
  revert shown
  decide +kernel

/-- Two guards of one named flow set the gauge in the other order. -/
example :
    let s := (meteredScheduler .default .wrapping).after
      [.schedule (.arrive ⟨"a"⟩ (.fin 1)), .schedule (.arrive ⟨"a"⟩ (.fin 1)),
        .schedule (.createGuard 0), .schedule (.createGuard 1), .setGauge 1, .setGauge 0]
    s.queueDepth "a" = 1 ∧ s.system.labelDepth "a" = 2 := by decide +kernel

end TinyLlb
