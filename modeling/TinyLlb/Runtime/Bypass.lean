import TinyLlb.Runtime.EffectiveCap
import TinyLlb.Runtime.Requests

/-! # How often an eligible flow is passed over

While a flow can pay for its head, a round without a starved flow selects it or
one that precedes it. Each such selection takes a flow out from ahead of it, and
nothing ever joins there: newcomers and served flows go to the back, and the
cursor is rotated only in rounds in which nobody is eligible. So the flows ahead
of it bound the number of times it is passed over by others of no higher
priority.

Eligibility itself lasts because a deficit only grows until the flow is served.
A round that serves a starved flow leaves before the deficits are raised, though,
and then a lowered weight can take the eligibility away again.
-/

namespace TinyLlb

variable {cfg : Config} {arith : I64Arith} {s s' : System} {action : Action} {event : Option Event}
  {f : FlowId} {p : Pending}

/-- The weight of the KV bias at the pressure of this state. -/
def System.biasWeight (cfg : Config) (s : System) : ℚ :=
  KvBiasHandle.weight ⟨cfg.scheduler.kvBias, s.pressure, s.delivered⟩ s.pressure

/-- A normal selection of a flow whose priority is not above that of `f`. -/
def passesOver (f : FlowId) (tr : Transition System Action Event) : Bool :=
  match tr.event with
  | some (.selected selection false) =>
      decide ((tr.pre.flow selection.flowId).priority ≤ (tr.pre.flow f).priority)
  | _ => false

def startsWithRound : List (Transition System Action Event) → Bool
  | ⟨_, .trySelect, _, _⟩ :: _ => true
  | _ => false

/-- A stretch of a run that begins with a round in which `f` can pay for its
    head `p`, and in which `f` goes on waiting for the service of `p`. -/
structure WaitingStretch (cfg : Config) (arith : I64Arith) (f : FlowId) (p : Pending)
    (s : System) (ts : List (Transition System Action Event)) (s' : System) : Prop where
  reach : (scheduler cfg arith).Reachable s
  run : (scheduler cfg arith).Exec s ts s'
  first : startsWithRound ts = true
  head : (s.inner.queue f).head? = some p
  eligible : p.cost ≤ s.inner.credit f + (s.flow f).truncWeight
  weight : ∀ tr ∈ ts, 1 ≤ (tr.pre.flow f).truncWeight
  unbiased : ∀ tr ∈ ts, tr.pre.biasWeight cfg ≤ 0
  waiting : selectedIds f (Machine.events ts) = []
  kept : p.pendingId ∉ removedIds f (Machine.events ts)

/-- What one step of a stretch may do, for a lower bound `least` of the weight. -/
structure StepWaiting (cfg : Config) (arith : I64Arith) (f : FlowId) (p : Pending) (least : Int)
    (tr : Transition System Action Event) : Prop where
  weight : 1 ≤ (tr.pre.flow f).truncWeight
  least : least ≤ (tr.pre.flow f).truncWeight
  unbiased : tr.pre.biasWeight cfg ≤ 0
  fits : tr.action = .trySelect →
    arith.store (tr.pre.inner.credit f + (tr.pre.flow f).truncWeight) =
      tr.pre.inner.credit f + (tr.pre.flow f).truncWeight
  waiting : ∀ selection forced, tr.event = some (.selected selection forced) →
    selection.flowId ≠ f
  kept : ∀ i removed, tr.event = some (.cancelled i f removed) → p ∉ removed

/-- `p` is the head of `f`, and covered by its deficit and one more weight. -/
structure Standing (f : FlowId) (p : Pending) (least : Int) (s : DrrState) : Prop where
  repInv : RepInv s
  head : ∃ rest, s.queue f = p :: rest
  covered : p.cost ≤ s.credit f + least

namespace Standing

variable {least : Int} {t t' : DrrState}

theorem mem_cursor (standing : Standing f p least t) : f ∈ t.rrCursor := by
  obtain ⟨rest, head⟩ := standing.head
  rw [standing.repInv.mem_cursor_iff, head]
  exact List.cons_ne_nil _ _

theorem eligible {env : SelectEnv} {registry : FlowRegistry} (standing : Standing f p least t)
    (positive : 1 ≤ (registry.getOrCreate f).truncWeight)
    (bound : least ≤ (registry.getOrCreate f).truncWeight)
    (fits : env.arith.store (t.credit f + (registry.getOrCreate f).truncWeight) =
      t.credit f + (registry.getOrCreate f).truncWeight) : Eligible env registry t f := by
  obtain ⟨rest, head⟩ := standing.head
  refine ⟨standing.mem_cursor, ?_⟩
  rw [TrySelect.affordable_iff]
  refine ⟨p, rest, DrrState.lookup_of_queue_cons head, by omega, ?_⟩
  have raised : TrySelect.raise env registry t.deficit f =
      t.credit f + (registry.getOrCreate f).truncWeight := fits
  have covered := standing.covered
  omega

theorem ahead_served {g : FlowId} {q : Pending} {rest : List Pending} (member : f ∈ t.rrCursor)
    (other : g ≠ f) (served : Served t t' g q rest) :
    Cursor.ahead f t'.rrCursor = Cursor.retire g (Cursor.ahead f t.rrCursor) := by
  have stays : f ∈ Cursor.retire g t.rrCursor := Cursor.mem_retire.mpr ⟨member, other.symm⟩
  rw [served.cursor]
  split
  · exact Cursor.ahead_retire other _
  · rw [Cursor.ahead_append stays]
    exact Cursor.ahead_retire other _

theorem served (standing : Standing f p least t) {g : FlowId} {q : Pending} {rest : List Pending}
    (other : g ≠ f) (served : Served t t' g q rest) (credit : t.credit f ≤ t'.credit f) :
    Standing f p least t' where
  repInv := served.repInv standing.repInv
  head := by
    rw [served.queue, if_neg other.symm]
    exact standing.head
  covered := by
    have covered := standing.covered
    omega

theorem enqueue (standing : Standing f p least t) (g : FlowId) (tx : Nat) (enter : Instant)
    (workUnit : F64) :
    Standing f p least (t.enqueue g tx enter workUnit) ∧
      Cursor.ahead f (t.enqueue g tx enter workUnit).rrCursor = Cursor.ahead f t.rrCursor := by
  refine ⟨⟨standing.repInv.enqueue g tx enter workUnit, ?_, standing.covered⟩,
    Cursor.ahead_join standing.mem_cursor g⟩
  obtain ⟨rest, head⟩ := standing.head
  rw [DrrState.queue_enqueue]
  split
  · rename_i same
    subst g
    rw [head]
    exact ⟨_, rfl⟩
  · exact ⟨rest, head⟩

theorem dropGuard (standing : Standing f p least t) (g : FlowId) (pendingId : Option Nat)
    (keeps : g = f → pendingId ≠ some p.pendingId) :
    Standing f p least (t.dropGuard g pendingId) ∧
      (Cursor.ahead f (t.dropGuard g pendingId).rrCursor).length ≤
        (Cursor.ahead f t.rrCursor).length := by
  obtain ⟨rest, head⟩ := standing.head
  have repInv := standing.repInv.dropGuard g pendingId
  have queue : ∃ rest', (t.dropGuard g pendingId).queue f = p :: rest' := by
    rw [DrrState.queue_dropGuard]
    split
    · rename_i same
      subst g
      rw [head]
      cases pendingId with
      | none => exact ⟨rest, rfl⟩
      | some myId =>
          have other : p.pendingId ≠ myId := fun h => keeps rfl (congrArg some h.symm)
          simp only [DrrState.kept, List.filter_cons, other, ne_eq, not_false_eq_true, decide_true,
            if_true]
          exact ⟨_, rfl⟩
    · exact ⟨rest, head⟩
  cases found : t.waiting.lookup g with
  | none =>
      rw [DrrState.dropGuard_of_none found] at *
      exact ⟨standing, le_rfl⟩
  | some entries =>
      cases DrrState.dropGuard_cases found pendingId with
      | inl emptied =>
          have other : g ≠ f := by
            rintro rfl
            obtain ⟨rest', left⟩ := queue
            have gone : (t.dropGuard g pendingId).queue g = [] := by
              rw [DrrState.queue_dropGuard, if_pos rfl, DrrState.queue_of_lookup found]
              exact emptied.1
            simp [gone] at left
          rw [emptied.2] at repInv queue ⊢
          refine ⟨⟨repInv, queue, ?_⟩, Cursor.ahead_retire_le other _⟩
          have same : (t.deficit.erase g).lookup f = t.deficit.lookup f :=
            AList.lookup_erase_ne other.symm
          simp only [DrrState.credit, same]
          exact standing.covered
      | inr left =>
          rw [left.2] at repInv queue ⊢
          exact ⟨⟨repInv, queue, standing.covered⟩, le_rfl⟩

end Standing

/-- A round of a stretch serves another flow, and a normal one does so from
    ahead of `f` unless that flow has a higher priority. -/
theorem standing_round {least : Int} {cap : Nat} {r : Round}
    (standing : Standing f p least s.inner)
    (spec : RoundSpec (s.selectEnv cfg arith cap) s.registry s.inner r)
    (cond : StepWaiting cfg arith f p least ⟨s, .trySelect,
      r.selection.map fun selection => .selected selection r.forceAdmit.isSome, s.afterRound r⟩) :
    Standing f p least r.state ∧
      (if passesOver f ⟨s, .trySelect,
        r.selection.map fun selection => .selected selection r.forceAdmit.isSome, s.afterRound r⟩
        then 1 else 0) + (Cursor.ahead f r.state.rrCursor).length ≤
        (Cursor.ahead f s.inner.rrCursor).length := by
  have member := standing.mem_cursor
  have eligible : Eligible (s.selectEnv cfg arith cap) s.registry s.inner f :=
    standing.eligible cond.weight cond.least (cond.fits rfl)
  cases spec with
  | atCap | nobody => exact ⟨standing, by simp [passesOver]⟩
  | @forced g wait q rest t under starved served deficit =>
      have other : g ≠ f := cond.waiting _ _ rfl
      have credit : s.inner.credit f ≤ t.credit f := by
        simp only [DrrState.credit, deficit]
        exact le_rfl
      refine ⟨standing.served other served credit, ?_⟩
      rw [Standing.ahead_served member other served]
      simpa [passesOver] using Cursor.length_retire_le g _
  | @regular g q rest t under calm chosen best served deficit =>
      have other : g ≠ f := cond.waiting _ _ rfl
      have credit : s.inner.credit f ≤ t.credit f := by
        have positive : 0 < (s.registry.getOrCreate f).truncWeight := cond.weight
        have raisedTo : t.credit f = s.inner.credit f + (s.registry.getOrCreate f).truncWeight := by
          simp only [DrrState.credit, deficit, other.symm, if_false, raised, member, positive,
            and_self, if_true, Option.getD_some]
          exact cond.fits rfl
        omega
      refine ⟨standing.served other served credit, ?_⟩
      rw [Standing.ahead_served member other served]
      by_cases counted : (s.flow g).priority ≤ (s.flow f).priority
      · -- `f` is eligible too, so `g` was preferred for standing ahead of it.
        have front : g ∈ Cursor.ahead f s.inner.rrCursor := by
          cases best cond.unbiased f eligible with
          | inl higher => exact absurd counted (not_le.mpr higher)
          | inr earlier =>
              obtain ⟨i, boundG, positionG⟩ := List.getElem_of_mem chosen.1
              obtain ⟨j, boundF, positionF⟩ := List.getElem_of_mem member
              have atG := List.getElem?_eq_some_iff.mpr ⟨boundG, positionG⟩
              have atF := List.getElem?_eq_some_iff.mpr ⟨boundF, positionF⟩
              have order := earlier.2 i j atG atF
              have apart : i ≠ j := by
                rintro rfl
                exact other (positionG.symm.trans positionF)
              exact Cursor.mem_ahead_of_lt atG atF standing.repInv.nodup (by omega)
        have shorter := Cursor.ahead_retire_lt front other
        rw [Cursor.ahead_retire other] at shorter
        simp only [passesOver, Option.map_some, Option.isSome_none, counted, decide_true, if_true]
        omega
      · simpa [passesOver, counted] using Cursor.length_retire_le g _
  | barren _ _ _ ineligible => exact absurd eligible (ineligible f)

theorem standing_step {least : Int} (standing : Standing f p least s.inner)
    (step : Step cfg arith s action event s')
    (cond : StepWaiting cfg arith f p least ⟨s, action, event, s'⟩) :
    Standing f p least s'.inner ∧
      (if passesOver f ⟨s, action, event, s'⟩ then 1 else 0) +
        (Cursor.ahead f s'.inner.rrCursor).length ≤ (Cursor.ahead f s.inner.rrCursor).length := by
  have released : Standing f p least s.inner.release :=
    ⟨standing.repInv.release, standing.head, standing.covered⟩
  cases step with
  | enqueue =>
      obtain ⟨stands, ahead⟩ := standing.enqueue _ _ _ _
      exact ⟨stands, by simpa [passesOver, System.enqueue] using le_of_eq (congrArg List.length ahead)⟩
  | @dropGuard i a pendingId found phase =>
      have keeps : a.flowId = f → pendingId ≠ some p.pendingId := by
        rintro rfl carries
        refine cond.kept i _ rfl ?_
        obtain ⟨rest, head⟩ := standing.head
        rw [List.mem_filter]
        exact ⟨by simp [head], by simpa using carries⟩
      obtain ⟨stands, ahead⟩ := standing.dropGuard a.flowId pendingId keeps
      exact ⟨stands, by simpa [passesOver, System.dropGuard] using ahead⟩
  | round pc spec => exact standing_round standing spec cond
  | closeReceiver =>
      unfold System.closeReceiver
      split
      · exact ⟨released, by simp [passesOver, System.setPhase, System.runDropHandler, DrrState.release]⟩
      · exact ⟨standing, by simp [passesOver, System.setPhase]⟩
  | dropTicket =>
      exact ⟨released, by simp [passesOver, System.dropTicket, System.setPhase,
        System.runDropHandler, DrrState.release]⟩
  | sendFailed =>
      exact ⟨released, by simp [passesOver, System.failedSend, DrrState.release]⟩
  | readCap => exact ⟨standing, by simp [passesOver]⟩
  | _ => exact ⟨standing, by simp only [passesOver]; exact le_of_eq (Nat.zero_add _)⟩

theorem standing_after_normal_round {least : Int} {cap : Nat} {r : Round}
    (standing : Standing f p least s.inner) (under : s.inner.outstanding < cap)
    (spec : RoundSpec (s.selectEnv cfg arith cap) s.registry s.inner r)
    (normal : ∀ found, r.forceAdmit ≠ some found)
    (cond : StepWaiting cfg arith f p least ⟨s, .trySelect,
      r.selection.map fun selection => .selected selection r.forceAdmit.isSome, s.afterRound r⟩) :
    Standing f p 0 r.state := by
  have stands := (standing_round standing spec cond).1
  refine ⟨stands.repInv, stands.head, ?_⟩
  have member := standing.mem_cursor
  have bound := cond.least
  have covered := standing.covered
  have positive : 0 < (s.registry.getOrCreate f).truncWeight := cond.weight
  cases spec with
  | atCap full => exact absurd full (not_le.mpr under)
  | nobody _ empty => simp [empty] at member
  | forced => exact absurd rfl (normal _)
  | @regular g q rest t _ _ _ _ served deficit =>
      have other : g ≠ f := cond.waiting _ _ rfl
      have raisedTo : t.credit f = s.inner.credit f + (s.registry.getOrCreate f).truncWeight := by
        simp only [DrrState.credit, deficit, other.symm, if_false, raised, member, positive,
          and_self, if_true, Option.getD_some]
        exact cond.fits rfl
      simp only [System.flow] at bound
      change p.cost ≤ t.credit f + 0
      omega
  | barren _ _ _ ineligible =>
      exact absurd (standing.eligible cond.weight cond.least (cond.fits rfl)) (ineligible f)

/-- The flows that pass `f` over in a run are charged to those ahead of it. -/
theorem passedOver_le {least : Int} {ts} (inv : SystemInv cfg s)
    (standing : Standing f p least s.inner) (run : (scheduler cfg arith).Exec s ts s')
    (cond : ∀ tr ∈ ts, StepWaiting cfg arith f p least tr) :
    ts.countP (passesOver f) ≤ (Cursor.ahead f s.inner.rrCursor).length := by
  obtain ⟨-, charged⟩ := run.charge (passesOver f)
    (fun t => (Cursor.ahead f t.inner.rrCursor).length)
    (I := fun t => SystemInv cfg t ∧ Standing f p least t.inner) cond ⟨inv, standing⟩ (by
      intro v a w e held allowed next
      have step := held.1.step_of_next next
      obtain ⟨stands, paid⟩ := standing_step held.2 step allowed
      exact ⟨⟨held.1.next step, stands⟩, paid⟩)
  omega

/-- The first round of the stretch serves a starved flow. -/
def startsForced : List (Transition System Action Event) → Bool
  | ⟨_, _, some (.selected _ true), _⟩ :: _ => true
  | _ => false

namespace WaitingStretch

variable {ts : List (Transition System Action Event)}

theorem standing (stretch : WaitingStretch cfg arith f p s ts s') :
    Standing f p (s.flow f).truncWeight s.inner := by
  refine ⟨(SystemInv.reachable stretch.reach).repInv, ?_, stretch.eligible⟩
  have head := stretch.head
  cases queue : s.inner.queue f with
  | nil => simp [queue] at head
  | cons q rest =>
      obtain rfl : q = p := by simpa [queue] using head
      exact ⟨rest, rfl⟩

theorem stepWaiting (stretch : WaitingStretch cfg arith f p s ts s')
    (fits : ∀ tr ∈ ts, tr.action = .trySelect →
      arith.store (tr.pre.inner.credit f + (tr.pre.flow f).truncWeight) =
        tr.pre.inner.credit f + (tr.pre.flow f).truncWeight)
    {least : Int} {tr} (member : tr ∈ ts) (bound : least ≤ (tr.pre.flow f).truncWeight) :
    StepWaiting cfg arith f p least tr := by
  refine ⟨stretch.weight tr member, bound, stretch.unbiased tr member, fits tr member, ?_, ?_⟩
  · intro selection forced emitted same
    have listed : selection.pending.pendingId ∈ selectedIds f (Machine.events ts) := by
      refine List.mem_filterMap.mpr ⟨_, List.mem_filterMap.mpr ⟨tr, member, emitted⟩, ?_⟩
      simp [same]
    rw [stretch.waiting] at listed
    simp at listed
  · intro i removed emitted gone
    refine stretch.kept (List.mem_flatMap.mpr
      ⟨_, List.mem_filterMap.mpr ⟨tr, member, emitted⟩, ?_⟩)
    simp only [if_true]
    exact List.mem_map_of_mem gone

end WaitingStretch

/-- While `f` waits with an eligible head, it is passed over by normal selections
    of no higher priority at most as often as flows stood ahead of it. This is
    for a deficit that does not overflow, and for a first round that is a normal
    one or a weight of `f` that does not fall below its value in that round. -/
theorem bounded_bypass {ts : List (Transition System Action Event)}
    (stretch : WaitingStretch cfg arith f p s ts s')
    (fits : ∀ tr ∈ ts, tr.action = .trySelect →
      arith.store (tr.pre.inner.credit f + (tr.pre.flow f).truncWeight) =
        tr.pre.inner.credit f + (tr.pre.flow f).truncWeight)
    (lasting : startsForced ts = false ∨
      ∀ tr ∈ ts, (s.flow f).truncWeight ≤ (tr.pre.flow f).truncWeight) :
    ts.countP (passesOver f) ≤ (Cursor.ahead f s.inner.rrCursor).length := by
  have inv := SystemInv.reachable stretch.reach
  have standing := stretch.standing
  cases lasting with
  | inr heavier =>
      exact passedOver_le inv standing stretch.run
        fun tr member => stretch.stepWaiting fits member (heavier tr member)
  | inl normal =>
      -- After the first round the deficit alone covers the head.
      cases ts with
      | nil => simp
      | cons tr rest =>
          have run : (scheduler cfg arith).Exec s ([] ++ tr :: rest) s' := stretch.run
          obtain ⟨before, next, after⟩ := run.split_at
          have here : tr.pre = s := by
            generalize none_ : ([] : List (Transition System Action Event)) = l at before
            cases before with
            | nil => rfl
            | snoc => simp at none_
          have cond := stretch.stepWaiting fits List.mem_cons_self (by rw [here])
          obtain ⟨pre, action, event, post⟩ := tr
          simp only at here
          subst here
          have step := inv.step_of_next next
          have round : action = .trySelect := by
            have first := stretch.first
            unfold startsWithRound at first
            cases action <;> simp_all
          subst round
          have charged := (standing_step standing step cond).2
          have afterwards : Standing f p 0 post.inner := by
            cases step with
            | closeReceiver which => simp at which
            | @round cap r pc spec =>
                refine standing_after_normal_round standing
                  (outstanding_lt_of_select stretch.reach pc) spec ?_ cond
                intro found forced
                cases selected : r.selection with
                | none => cases spec <;> simp at selected forced
                | some selection => simp [startsForced, selected, forced] at normal
          have later := passedOver_le (inv.next step) afterwards after (by
            intro tr' member
            have weight := stretch.weight tr' (List.mem_cons_of_mem _ member)
            exact stretch.stepWaiting fits (List.mem_cons_of_mem _ member) (by omega))
          rw [List.countP_cons]
          simp only at charged later
          omega

/-- Three requests are queued in the order `f`, `g`, `h`, where `h` has waited
    past the starvation timeout, and the loop is about to select. -/
def lateArrivals (weight : F64) (cost : F64) : List Action :=
  [.arrive ⟨"h"⟩ (.fin 1), .createGuard 0, .tick (Duration.fromSecs 301),
    .register ⟨⟨"f"⟩, weight, 50⟩,
    .arrive ⟨"f"⟩ cost, .createGuard 1, .enqueue 1, .stamp 1, .notify 1,
    .arrive ⟨"g"⟩ (.fin 1), .createGuard 2, .enqueue 2, .stamp 2, .notify 2,
    .enqueue 0, .stamp 0, .notify 0, .wakeNotified, .readCap, .readState]

/-- As before, with `h` on time and of higher priority. -/
def urgentArrival (weight : F64) (cost : F64) : List Action :=
  [.register ⟨⟨"f"⟩, weight, 50⟩, .register ⟨⟨"h"⟩, .fin 1, 100⟩,
    .arrive ⟨"f"⟩ cost, .createGuard 0, .enqueue 0, .stamp 0, .notify 0,
    .arrive ⟨"g"⟩ (.fin 1), .createGuard 1, .enqueue 1, .stamp 1, .notify 1,
    .arrive ⟨"h"⟩ (.fin 1), .createGuard 2, .enqueue 2, .stamp 2, .notify 2,
    .wakeNotified, .readCap, .readState]

/-- `h` goes first for its priority and `f` for its place; `g` is passed over by
    `f` alone. -/
theorem bounded_bypass_one_ahead :
    let m := scheduler .default .wrapping
    let s := m.after (urgentArrival (.fin 1) (.fin 1))
    let ts := m.traceFrom s [.trySelect, .send, .readCap, .readState, .trySelect, .send]
    ts.length = 6 ∧ Cursor.ahead ⟨"g"⟩ s.inner.rrCursor = [⟨"f"⟩] ∧
      ts.countP (passesOver ⟨"g"⟩) ≤ (Cursor.ahead ⟨"g"⟩ s.inner.rrCursor).length := by
  refine ⟨by decide +kernel, by decide +kernel, ?_⟩
  have stretch : WaitingStretch .default .wrapping ⟨"g"⟩ ⟨1, 1, 0, .fin 1⟩ _ _ _ :=
    ⟨Machine.reachable_after _ (urgentArrival (.fin 1) (.fin 1)),
      Machine.exec_afterFrom _ _ [.trySelect, .send, .readCap, .readState, .trySelect, .send],
      by decide +kernel, by decide +kernel, by decide +kernel, by decide +kernel,
      by decide +kernel, by decide +kernel, by decide +kernel⟩
  exact bounded_bypass stretch (by decide +kernel) (.inl (by decide +kernel))

/-- Two stretches in which `f` stands at the front and is passed over once. In
    the first one a starved flow is served before the deficits are raised, and
    the weight of `f` is lowered to 1 after that. In the second one the deficit
    of `f` overflows. -/
theorem bypass_exceeds_places_ahead :
    (∃ f p s ts s', WaitingStretch .default .exact f p s ts s' ∧
      (Cursor.ahead f s.inner.rrCursor).length < ts.countP (passesOver f)) ∧
    ∃ f p s ts s', WaitingStretch .default .wrapping f p s ts s' ∧
      (Cursor.ahead f s.inner.rrCursor).length < ts.countP (passesOver f) := by
  constructor
  · let m := scheduler .default .exact
    let s := m.after (lateArrivals (.fin 10) (.fin 10))
    let actions : List Action :=
      [.trySelect, .send, .register ⟨⟨"f"⟩, .fin 1, 50⟩, .readCap, .readState, .trySelect]
    refine ⟨⟨"f"⟩, ⟨0, 1, Duration.fromSecs 301, .fin 10⟩, s, m.traceFrom s actions, _,
      ⟨Machine.reachable_after _ _, Machine.exec_afterFrom _ _ actions, ?_, ?_, ?_, ?_, ?_, ?_, ?_⟩,
      ?_⟩
    all_goals decide +kernel
  · let m := scheduler .default .wrapping
    let s := m.after (urgentArrival (.fin (10 ^ 19)) (.fin 1))
    let actions : List Action := [.trySelect, .send, .readCap, .readState, .trySelect]
    refine ⟨⟨"f"⟩, ⟨0, 0, 0, .fin 1⟩, s, m.traceFrom s actions, _,
      ⟨Machine.reachable_after _ _, Machine.exec_afterFrom _ _ actions, ?_, ?_, ?_, ?_, ?_, ?_, ?_⟩,
      ?_⟩
    all_goals decide +kernel

end TinyLlb
