import TinyLlb.Gateway.Ledger
import TinyLlb.Runtime.Requests

/-! # Admissions that fail

An `admit` that ends without its ticket drops a guard that was not consumed. The
debit is taken when the request is selected, and only the lifecycle guard, which
needs the ticket, gives anything back. So the flow keeps its credit exactly if
the request was still in its queue, or not in it yet, when the guard was dropped.
-/

namespace TinyLlb

section

variable {cfg : Config} {arith : I64Arith} {s s' : System} {action : Action} {event : Option Event}
  {picked : List Nat}

theorem Step.stays_queued (links : Links s) (step : Step cfg arith s action event s') {f : FlowId}
    {p : Pending} (queued : p ∈ s.inner.queue f) :
    p ∈ s'.inner.queue f ∨ p.tx ∈ chosen event.toList ∨ action = .dropGuard p.tx := by
  cases step with
  | @enqueue i a =>
      have queue : (s.enqueue i a).inner.queue f = _ := DrrState.queue_enqueue _ _ _ _ _ f
      left
      rw [queue]
      split
      · subst f
        exact List.mem_append_left _ queued
      · exact queued
  | @dropGuard i a pendingId found phase =>
      by_cases own : p.tx = i
      · exact .inr (.inr (congrArg Action.dropGuard own.symm))
      · left
        rw [links.queue_dropGuard found phase]
        exact List.mem_filter.mpr ⟨queued, decide_eq_true own⟩
  | @round cap r pc spec =>
      change p ∈ r.state.queue f ∨ _
      cases selected : r.selection with
      | none =>
          left
          rw [DrrState.queue, (spec.waiting_eq selected).1]
          exact queued
      | some selection =>
          obtain ⟨-, rest, served⟩ := spec.served selected
          rw [served.queue]
          split
          · subst f
            rw [served.head] at queued
            cases List.mem_cons.mp queued with
            | inl head => exact .inr (.inl (by simp [chosen, head]))
            | inr later => exact .inl later
          · exact .inl queued
  | closeReceiver =>
      left
      unfold System.closeReceiver
      split <;> exact queued
  | _ => exact .inl queued

theorem PhaseMove.guardId {i : Nat} {p q : Phase} (move : PhaseMove s i action p q)
    (carries : q.guardId ≠ none) : p.guardId ≠ none ∨ action = .enqueue i := by
  cases move with
  | enqueue => exact .inr rfl
  | stamp | notify | closeEmpty | closeFull | wakeGuard | sent => exact .inl (by simp [Phase.guardId])
  | createGuard | receive | leaveGate | dropGuard | dropTicket | wakeLast => exact absurd rfl carries

theorem Step.queued_of_enqueue {i : Nat} {a : Admission} (step : Step cfg arith s action event s')
    (pushes : action = .enqueue i) (found : s.admissions[i]? = some a) :
    ∃ p ∈ s'.inner.queue a.flowId, p.tx = i := by
  cases step with
  | @enqueue j b foundB phase =>
      obtain rfl := Action.enqueue.inj pushes
      rw [found, Option.some.injEq] at foundB
      subst b
      have queue : (s.enqueue j a).inner.queue a.flowId = _ := DrrState.queue_enqueue _ _ _ _ _ _
      rw [queue, if_pos rfl]
      exact ⟨_, List.mem_append_right _ (List.mem_singleton_self _), rfl⟩
  | closeReceiver which =>
      subst pushes
      simp at which
  | _ => cases pushes

theorem Step.pushed_of_guardId (step : Step cfg arith s action event s') {j : Nat} {a b : Admission}
    (before : s.admissions[j]? = some a) (after : s'.admissions[j]? = some b)
    (carries : b.phase.guardId ≠ none) :
    a.phase.guardId ≠ none ∨ ∃ p ∈ s'.inner.queue a.flowId, p.tx = j := by
  cases step.tableChange with
  | arrived f workUnit which admissions =>
      rw [admissions, Slots.getElem?_append before, Option.some.injEq] at after
      subst b
      exact .inl carries
  | moved i c phase found move admissions =>
      rw [admissions, Slots.getElem?_set found] at after
      split at after
      · subst j
        obtain rfl := Option.some.inj after
        rw [found, Option.some.injEq] at before
        subst c
        exact (move.guardId carries).imp_right fun pushes => step.queued_of_enqueue pushes found
      · rw [before, Option.some.injEq] at after
        subst b
        exact .inl carries
  | kept _ admissions =>
      rw [admissions, before, Option.some.injEq] at after
      subst b
      exact .inl carries

/-- A guard with a request id has its request in the queue, or it was chosen. -/
def Awaited (s : System) (picked : List Nat) : Prop :=
  ∀ (i : Nat) (a : Admission), s.admissions[i]? = some a → a.phase.guardId ≠ none →
    i ∈ picked ∨ ∃ p ∈ s.inner.queue a.flowId, p.tx = i

theorem Awaited.next (awaited : Awaited s picked) (links : Links s)
    (step : Step cfg arith s action event s') : Awaited s' (picked ++ chosen event.toList) := by
  intro i b after carries
  cases before : s.admissions[i]? with
  | none =>
      have entered := step.newcomer after before
      simp [entered, Phase.guardId] at carries
  | some a =>
      obtain ⟨c, foundC, goes⟩ := step.onward before
      rw [after, Option.some.injEq] at foundC
      subst c
      cases step.pushed_of_guardId before after carries with
      | inr pushed =>
          right
          rw [goes.flow]
          exact pushed
      | inl carried =>
          cases awaited i a before carried with
          | inl picks => exact .inl (List.mem_append_left _ picks)
          | inr queued =>
              obtain ⟨p, member, rfl⟩ := queued
              rcases step.stays_queued links member with stays | selected | drops
              · right
                rw [goes.flow]
                exact ⟨p, stays, rfl⟩
              · exact .inl (List.mem_append_right _ selected)
              · -- its guard is gone, so it carries no id any more
                obtain ⟨d, pendingId, found, phase, rfl⟩ := step.of_dropGuard drops
                change (s.admissions.set p.tx { d with phase := .finished })[p.tx]? = some b at after
                rw [Slots.getElem?_set found, if_pos rfl] at after
                obtain rfl := Option.some.inj after
                simp [Phase.guardId] at carries

theorem awaited_of_run {ts} (run : (scheduler cfg arith).Exec (System.start cfg) ts s) :
    Awaited s (chosen (Machine.events ts)) := by
  induction run with
  | nil =>
      intro i a found
      simp [System.start] at found
  | snoc before step ih =>
      have reach : (scheduler cfg arith).Reachable _ := ⟨_, before⟩
      rw [Machine.events_append, Machine.events_singleton, chosen_append]
      exact ih.next (Links.reachable reach) ((SystemInv.reachable reach).step_of_next step)

/-- When its guard is dropped, a request was not chosen exactly if it is still
    queued or was never pushed. -/
theorem not_chosen_iff (debits : Debits s picked) (awaited : Awaited s picked) {i : Nat}
    {a : Admission} {pendingId : Option Nat} (found : s.admissions[i]? = some a)
    (phase : a.phase = .unwinding pendingId) :
    i ∉ picked ↔ a.phase = .unwinding none ∨ ∃ p ∈ s.inner.queue a.flowId, p.tx = i := by
  constructor
  · intro fresh
    cases pendingId with
    | none => exact .inl phase
    | some id =>
        have carries : a.phase.guardId ≠ none := by simp [phase, Phase.guardId]
        exact .inr ((awaited i a found carries).resolve_left fresh)
  · rintro (unpushed | ⟨p, queued, rfl⟩) picks
    · obtain ⟨b, foundB, past⟩ := debits.past i picks
      rw [found, Option.some.injEq] at foundB
      subst b
      simp [unpushed, Phase.pastPush] at past
    · exact debits.queued a.flowId p queued picks

end

/-- The step takes the cost of request `i` from a credit, or reports for it. -/
def settles (i : Nat) (tr : Transition Gateway GatewayAction Event) : Bool :=
  decide (i ∈ chosen tr.event.toList) || decide (tr.action = .dropLifecycle i)

/-- What all steps of a run for request `i` did to the credit of `f`. -/
def netEffect (ts : List (Transition Gateway GatewayAction Event)) (f : FlowId) (i : Nat) : Int :=
  Slots.total (fun tr =>
    if settles i tr then (tr.post.system.flow f).credit - (tr.pre.system.flow f).credit else 0) ts

section

variable {cfg : GatewayConfig} {arith : I64Arith} {g g' : Gateway} {action : GatewayAction}
  {event : Option Event} {i : Nat}

theorem credit_stored (reach : (gateway cfg arith).Reachable g) (f : FlowId) :
    arith.store (g.system.flow f).credit = (g.system.flow f).credit := by
  apply reach.invariant
    (I := fun g => ∀ f, arith.store (g.system.flow f).credit = (g.system.flow f).credit)
  · intro f
    have zero : arith.store 0 = 0 := arith.store_of_inI64 (by decide)
    exact zero
  · intro v a w e reached stored step f
    cases (GatewayStep.of_next step).ledgerChange reached with
    | selected _ _ _ _ _ _ _ _ credit | dropped _ _ _ _ _ _ credit =>
        rw [credit]
        split
        · exact arith.store_store _
        · exact stored f
    | opened _ _ _ _ _ _ _ credit | continued _ _ _ _ _ _ _ _ credit | kept _ _ credit =>
        rw [credit]
        exact stored f

theorem LedgerChange.unguarded (change : LedgerChange arith g action event g')
    (absent : g'.lifecycle i = .none) : g.lifecycle i = .none := by
  cases change.lifecycleChange i with
  | opened _ _ _ _ before => exact before
  | continued _ _ _ _ _ after | dropped _ _ after => simp [absent] at after
  | kept same => rwa [same] at absent

theorem settles_of_unguarded (step : GatewayStep cfg arith g action event g')
    (absent : g.lifecycle i = .none) :
    settles i ⟨g, action, event, g'⟩ = decide (i ∈ chosen event.toList) := by
  have silent : action ≠ .dropLifecycle i := by
    rintro rfl
    cases step with
    | dropLifecycle live => simp [absent] at live
  simp [settles, silent]

theorem netEffect_snoc (ts : List (Transition Gateway GatewayAction Event)) (tr) (f : FlowId) :
    netEffect (ts ++ [tr]) f i = netEffect ts f i +
      if settles i tr then (tr.post.system.flow f).credit - (tr.pre.system.flow f).credit else 0 := by
  rw [netEffect, Slots.total_append, Slots.total_cons, Slots.total_nil, add_zero, netEffect]

theorem netEffect_unchosen {ts} (run : (gateway cfg arith).Exec (Gateway.start cfg) ts g)
    (absent : g.lifecycle i = .none) (fresh : i ∉ chosen (Machine.events ts)) (f : FlowId) :
    netEffect ts f i = 0 := by
  induction run with
  | nil => rfl
  | snoc before step ih =>
      rw [Machine.events_append, Machine.events_singleton, chosen_append, List.mem_append,
        not_or] at fresh
      have move := GatewayStep.of_next step
      have absentBefore := (move.ledgerChange ⟨_, before⟩).unguarded absent
      rw [netEffect_snoc, ih absentBefore fresh.1, settles_of_unguarded move absentBefore,
        if_neg (by simpa using fresh.2), add_zero]

/-- A chosen request without a lifecycle guard has the debit as its only effect. -/
theorem netEffect_chosen {ts} (run : (gateway cfg arith).Exec (Gateway.start cfg) ts g)
    (absent : g.lifecycle i = .none) (picks : i ∈ chosen (Machine.events ts)) {a : Admission}
    (found : g.system.admissions[i]? = some a) :
    ∃ credit, arith.store credit = credit ∧
      netEffect ts a.flowId i = arith.store (credit - a.workUnit.asI64) - credit := by
  induction run generalizing a with
  | nil => simp [chosen] at picks
  | @snoc ts v action w event before step ih =>
      have reach : (gateway cfg arith).Reachable v := ⟨_, before⟩
      have move := GatewayStep.of_next step
      have change := move.ledgerChange reach
      have absentBefore := change.unguarded absent
      have settled := settles_of_unguarded move absentBefore
      have once := (debits_of_run (before.snoc step)).nodup
      rw [Machine.events_append, Machine.events_singleton, chosen_append] at picks once
      rw [netEffect_snoc, settled]
      cases List.mem_append.mp picks with
      | inl earlier =>
          have notNow : i ∉ chosen event.toList :=
            fun now => (List.nodup_append.mp once).2.2 i earlier i now rfl
          obtain ⟨b, foundB, -⟩ := (debits_of_run before).past i earlier
          obtain ⟨c, foundC, flow, workUnit⟩ := move.keeps reach i b foundB
          rw [found, Option.some.injEq] at foundC
          subst c
          obtain ⟨credit, stored, effect⟩ := ih absentBefore earlier foundB
          refine ⟨credit, stored, ?_⟩
          rw [flow, workUnit, effect, if_neg (by simpa using notNow), add_zero]
      | inr now =>
          have fresh : i ∉ chosen (Machine.events ts) :=
            fun earlier => (List.nodup_append.mp once).2.2 i earlier i now rfl
          rw [netEffect_unchosen before absentBefore fresh, if_pos (by simpa using now), zero_add]
          cases change with
          | selected selection forced b emitted foundB waits queued lifecycle credit =>
              subst emitted
              obtain rfl := List.mem_singleton.mp now
              obtain ⟨c, foundC, flow, workUnit⟩ := move.keeps reach _ b foundB
              rw [found, Option.some.injEq] at foundC
              subst c
              refine ⟨(v.system.flow selection.flowId).credit, credit_stored reach _, ?_⟩
              rw [flow, workUnit, waits.flow, waits.workUnit, credit, if_pos rfl]
              rfl
          | kept quiet =>
              rw [chosen_other quiet] at now
              cases now
          | dropped _ _ _ silent | opened _ _ silent | continued _ _ _ silent =>
              subst silent
              cases now

theorem GatewayStep.leads (reach : (gateway cfg arith).Reachable g)
    (step : GatewayStep cfg arith g action event g') {a : Admission}
    (found : g.system.admissions[i]? = some a) :
    ∃ b, g'.system.admissions[i]? = some b ∧ a.phase.Leads b.phase := by
  obtain ⟨us, run, -⟩ := step.view
  obtain ⟨b, foundB, -, -, leads⟩ := exec_onward (Gateway.reachable reach) run found
  exact ⟨b, foundB, leads⟩

theorem LedgerChange.admitted_of_opened (change : LedgerChange arith g action event g')
    (absent : g.lifecycle i = .none) (guarded : g'.lifecycle i ≠ .none) :
    ∃ a ticket, g.system.admissions[i]? = some a ∧ a.phase = .admitted ticket := by
  cases change.lifecycleChange i with
  | opened a ticket found phase => exact ⟨a, ticket, found, phase⟩
  | continued _ _ _ _ before | dropped _ before => simp [absent] at before
  | kept same =>
      rw [same] at guarded
      exact absurd absent guarded

theorem received_of_guard (reach : (gateway cfg arith).Reachable g) (i : Nat)
    (guarded : g.lifecycle i ≠ .none) :
    ∃ a, g.system.admissions[i]? = some a ∧ a.phase.received = true := by
  apply reach.invariant (I := fun g => ∀ i, g.lifecycle i ≠ .none →
    ∃ a, g.system.admissions[i]? = some a ∧ a.phase.received = true) _ _ i guarded
  · intro i guarded
    exact absurd rfl guarded
  · intro v action w event reached held step i guarded
    have move := GatewayStep.of_next step
    have before : ∃ a, v.system.admissions[i]? = some a ∧ a.phase.received = true := by
      by_cases absent : v.lifecycle i = .none
      · obtain ⟨a, ticket, found, phase⟩ :=
          (move.ledgerChange reached).admitted_of_opened absent guarded
        exact ⟨a, found, by rw [phase]; rfl⟩
      · exact held i absent
    obtain ⟨a, found, received⟩ := before
    obtain ⟨b, foundB, leads⟩ := move.leads reached found
    exact ⟨b, foundB, leads.received received⟩

/-- A finished admission without a lifecycle guard never gets one, and its
    request is not chosen any more. -/
theorem finished_stays {ts} (reach : (gateway cfg arith).Reachable g)
    (run : (gateway cfg arith).Exec g ts g') {a : Admission}
    (found : g.system.admissions[i]? = some a) (phase : a.phase = .finished)
    (absent : g.lifecycle i = .none) :
    (∃ b, g'.system.admissions[i]? = some b ∧ b.phase = .finished) ∧
      g'.lifecycle i = .none ∧ i ∉ chosen (Machine.events ts) := by
  induction run with
  | nil => exact ⟨⟨a, found, phase⟩, absent, by simp [chosen]⟩
  | @snoc ts v action w event before step ih =>
      obtain ⟨⟨b, foundB, finished⟩, absentB, fresh⟩ := ih
      have reached := reach.exec before
      have move := GatewayStep.of_next step
      have change := move.ledgerChange reached
      obtain ⟨c, foundC, leads⟩ := move.leads reached foundB
      refine ⟨⟨c, foundC, leads.ended finished⟩, ?_, ?_⟩
      · by_contra guarded
        obtain ⟨d, ticket, foundD, admitted⟩ := change.admitted_of_opened absentB guarded
        rw [foundB, Option.some.injEq] at foundD
        subst d
        simp [finished] at admitted
      · rw [Machine.events_append, Machine.events_singleton, chosen_append, List.mem_append, not_or]
        refine ⟨fresh, ?_⟩
        intro now
        cases change with
        | selected selection forced d emitted foundD waits =>
            subst emitted
            obtain rfl := List.mem_singleton.mp now
            rw [foundB, Option.some.injEq] at foundD
            subst d
            have awaits := waits.awaits
            simp [finished, Phase.Awaits] at awaits
        | kept quiet =>
            rw [chosen_other quiet] at now
            cases now
        | dropped _ _ _ silent | opened _ _ silent | continued _ _ _ silent =>
            subst silent
            cases now

theorem store_sub_eq_iff {credit : Int} (stored : arith.store credit = credit) (workUnit : F64) :
    arith.store (credit - workUnit.asI64) - credit = 0 ↔ workUnit.asI64 = 0 := by
  constructor
  · intro same
    have back : arith.store (credit + -workUnit.asI64) = arith.store credit := by
      rw [stored, ← sub_eq_add_neg]
      omega
    have range := workUnit.asI64_inI64
    unfold InI64 i64Min i64Max at range
    have zero := arith.eq_zero_of_store_add (by omega) back
    omega
  · intro free
    rw [free, sub_zero, stored, sub_self]

theorem GatewayStep.of_dropGuard (reach : (gateway cfg arith).Reachable g)
    (step : GatewayStep cfg arith g (.sched (.dropGuard i)) event g') :
    ∃ a pendingId, g.system.admissions[i]? = some a ∧ a.phase = .unwinding pendingId ∧
      g'.system.admissions[i]? = some { a with phase := .finished } ∧
      g.lifecycle i = .none ∧ g'.lifecycle i = .none ∧ chosen event.toList = [] := by
  cases step with
  | sched own step =>
      have inv := SystemInv.reachable (Gateway.reachable reach)
      have move := inv.step_of_next step
      obtain ⟨a, pendingId, found, phase, rfl⟩ := move.of_dropGuard rfl
      have absent : g.lifecycle i = .none := by
        by_contra guarded
        obtain ⟨b, foundB, received⟩ := received_of_guard reach i guarded
        rw [found, Option.some.injEq] at foundB
        subst b
        simp [phase, Phase.received] at received
      have written : (g.system.dropGuard i a pendingId).admissions[i]? =
          some { a with phase := .finished } := by
        change (g.system.admissions.set i _)[i]? = _
        rw [Slots.getElem?_set found, if_pos rfl]
      have quiet : chosen event.toList = [] := by
        apply chosen_other
        rintro selection forced rfl
        obtain ⟨cap, r, which, -⟩ := move.of_selected rfl
        cases which
      exact ⟨a, pendingId, found, phase, written, absent, absent, quiet⟩

end

/-- The guard of an `admit` is dropped without its ticket. The flow's credit is
    left as it was if and only if the request was never pushed or is still in its
    queue, or costs nothing. -/
theorem failed_admission_effect (cfg : GatewayConfig) (arith : I64Arith) {ts g}
    (run : (gateway cfg arith).Exec (Gateway.start cfg) ts g) {tr} (member : tr ∈ ts) {i : Nat}
    (drops : tr.action = .sched (.dropGuard i)) {a : Admission}
    (found : tr.pre.system.admissions[i]? = some a) :
    netEffect ts a.flowId i = 0 ↔
      (a.phase = .unwinding none ∨ ∃ p ∈ tr.pre.system.inner.queue a.flowId, p.tx = i) ∨
        a.workUnit.asI64 = 0 := by
  have step := GatewayStep.of_next (run.step_of_mem member)
  obtain ⟨before, after, rfl, first, rest⟩ := run.split_of_mem member
  have reach : (gateway cfg arith).Reachable tr.pre := ⟨_, first⟩
  have reached : (gateway cfg arith).Reachable tr.post := reach.step (run.step_of_mem member)
  rw [drops] at step
  obtain ⟨b, pendingId, foundB, phase, written, -, absent, quiet⟩ := step.of_dropGuard reach
  rw [found, Option.some.injEq] at foundB
  subst b
  obtain ⟨-, absentEnd, later⟩ := finished_stays reached rest written rfl absent
  -- the row at the end is the one of the admission that failed
  obtain ⟨us, viewed, -⟩ := rest.project Gateway.system fun step => (GatewayStep.of_next step).view
  obtain ⟨c, foundC, flow, workUnit⟩ := exec_keeps (Gateway.reachable reached) viewed i _ written
  have picks : i ∈ chosen (Machine.events (before ++ tr :: after)) ↔
      i ∈ chosen (Machine.events before) := by
    rw [← List.singleton_append, Machine.events_append, Machine.events_append,
      Machine.events_singleton, chosen_append, chosen_append, quiet, List.nil_append,
      List.mem_append, or_iff_left later]
  obtain ⟨vs, whole, same⟩ := gateway_refines first
  have awaited := awaited_of_run whole
  rw [same] at awaited
  rw [← not_chosen_iff (debits_of_run first) awaited found phase, ← picks]
  by_cases chose : i ∈ chosen (Machine.events (before ++ tr :: after))
  · obtain ⟨credit, stored, effect⟩ := netEffect_chosen run absentEnd chose foundC
    rw [flow, workUnit] at effect
    rw [effect, store_sub_eq_iff stored, or_iff_right (not_not.mpr chose)]
  · exact iff_of_true (netEffect_unchosen run absentEnd chose a.flowId) (.inl chose)

/-- A request of one token goes up to its place in the queue. -/
def GatewayAction.queueUp : List GatewayAction :=
  [.request ⟨"a"⟩ (.json (some (.number (.fin 1)))) 0 true, .stallGate 0, .admitInner 0,
    .sched (.createGuard 0), .sched (.enqueue 0), .sched (.stamp 0), .sched (.notify 0)]

/-- A client that disconnects while its request is queued is not charged. -/
theorem failed_admission_effect_queued :
    let m := gateway .default .wrapping
    let actions := GatewayAction.queueUp ++ [.sched (.cancel 0), .sched (.dropGuard 0)]
    (m.trace actions).length = 9 ∧ netEffect (m.trace actions) ⟨"a"⟩ 0 = 0 := by
  intro m actions
  have steps : (m.trace actions).length = 9 := by decide +kernel
  have last : ∀ tr ∈ (m.trace actions)[8]?, tr.action = .sched (.dropGuard 0) ∧
      (tr.pre.system.admissions[0]?).isSome = true ∧
      ∀ a ∈ tr.pre.system.admissions[0]?, a.flowId = ⟨"a"⟩ ∧
        ∃ p ∈ tr.pre.system.inner.queue a.flowId, p.tx = 0 := by
    decide +kernel
  obtain ⟨tr, found⟩ : ∃ tr, (m.trace actions)[8]? = some tr := by
    exact ⟨_, List.getElem?_eq_getElem (by omega)⟩
  obtain ⟨drops, there, row⟩ := last tr found
  obtain ⟨a, foundA⟩ := Option.isSome_iff_exists.mp there
  obtain ⟨flow, queued⟩ := row a foundA
  have effect := (failed_admission_effect .default .wrapping (m.exec_after actions)
    (List.mem_of_getElem? found) drops foundA).mpr (.inl (.inr queued))
  rw [flow] at effect
  exact ⟨steps, effect⟩

/-- A client that disconnects when its ticket is already in the channel pays for
    the request. -/
theorem failed_admission_charged :
    let m := gateway .default .wrapping
    let actions := GatewayAction.queueUp ++
      [.sched .wakeNotified, .sched .readCap, .sched .readState, .sched .trySelect, .sched .send,
        .sched (.cancel 0), .sched (.wake 0), .sched (.dropGuard 0)]
    m.Exec m.start (m.trace actions) (m.after actions) ∧
      (∃ tr ∈ m.trace actions, tr.action = .sched (.dropGuard 0)) ∧
      (m.after actions).system.flowOf 0 = some ⟨"a"⟩ ∧
      netEffect (m.trace actions) ⟨"a"⟩ 0 = -1 := by
  intro m actions
  exact ⟨m.exec_after actions, by decide +kernel, by decide +kernel, by decide +kernel⟩

end TinyLlb
