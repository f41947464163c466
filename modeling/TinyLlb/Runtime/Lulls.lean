import TinyLlb.Runtime.Requests
import TinyLlb.Runtime.Wakeup

/-! # Stretches of a run between two moves of a request

To exhibit a run one has to take it step by step. Most of its steps move no
request: they are collected into lulls, across which the queues and the rank of
every flow stay as they are. The two lulls that matter are the way of a ticket
from the loop to a caller and back, and the way of an admission into its queue.
-/

namespace TinyLlb

variable {cfg : Config} {arith : I64Arith} {s s' : System} {action : Action} {event : Option Event}

/-- Nothing that the contest of the flows depends on has changed. -/
structure SameContest (s s' : System) : Prop where
  queue : s'.inner.queue = s.inner.queue
  weight : ∀ f, (s'.flow f).weight = (s.flow f).weight
  priority : ∀ f, (s'.flow f).priority = (s.flow f).priority

theorem SameContest.refl (s : System) : SameContest s s := ⟨rfl, fun _ => rfl, fun _ => rfl⟩

theorem SameContest.trans {t : System} (first : SameContest s t) (second : SameContest t s') :
    SameContest s s' where
  queue := second.queue.trans first.queue
  weight := fun f => (second.weight f).trans (first.weight f)
  priority := fun f => (second.priority f).trans (first.priority f)

/-- A stretch of a run in which no request moves. -/
structure Lull (cfg : Config) (arith : I64Arith) (s : System)
    (ts : List (Transition System Action Event)) (s' : System) : Prop where
  exec : (scheduler cfg arith).Exec s ts s'
  silent : ∀ tr ∈ ts, Event.isSilent tr.event = true
  pre : ∀ tr ∈ ts, SameContest s tr.pre
  post : ∀ tr ∈ ts, SameContest s tr.post
  same : SameContest s s'

namespace Lull

theorem nil (s : System) : Lull cfg arith s [] s where
  exec := .nil
  silent := by simp
  pre := by simp
  post := by simp
  same := .refl s

theorem cons {ts t e} (inv : SystemInv cfg s) (rest : Lull cfg arith t ts s')
    (step : nextSystem cfg arith s action = some (t, e)) (silent : Event.isSilent e = true)
    (queue : t.inner.queue = s.inner.queue) (unregistered : ∀ reg, action ≠ .register reg)
    (unmoved : ∀ f p source, action ≠ .setPriority f p source) :
    Lull cfg arith s (⟨s, action, e, t⟩ :: ts) s' := by
  have rank := (inv.step_of_next step).rank_eq unregistered unmoved
  have same : SameContest s t := ⟨queue, fun f => (rank f).1, fun f => (rank f).2⟩
  refine ⟨.cons step rest.exec, ?_, ?_, ?_, same.trans rest.same⟩
  · intro tr member
    cases List.mem_cons.mp member with
    | inl here =>
        subst here
        exact silent
    | inr later => exact rest.silent tr later
  · intro tr member
    cases List.mem_cons.mp member with
    | inl here =>
        subst here
        exact .refl s
    | inr later => exact same.trans (rest.pre tr later)
  · intro tr member
    cases List.mem_cons.mp member with
    | inl here =>
        subst here
        exact same
    | inr later => exact same.trans (rest.post tr later)

end Lull

theorem System.Settled.set {i : Nat} {a : Admission} (settled : s.Settled)
    (paid : a.phase.owesNotify = false) (same : s'.admissions = s.admissions.set i a) :
    s'.Settled := by
  intro b member
  rw [same] at member
  cases List.mem_or_eq_of_mem_set member with
  | inl old => exact settled b old
  | inr new =>
      subst b
      exact paid

/-- The loop hands its ticket over and gets the permit back at once: the caller
    receives the ticket and drops it, or had gone before. -/
theorem drain (reach : (scheduler cfg arith).Reachable s) {sel : Selection}
    (pc : s.pc = .send sel) (settled : s.Settled) :
    ∃ ts s', Lull cfg arith s ts s' ∧ s'.pc = .readCap ∧ s'.inner = s.inner.release ∧
      s'.now = s.now ∧ s'.Settled := by
  have inv := SystemInv.reachable reach
  obtain ⟨a, found, -, state⟩ := (Links.reachable reach).inHand sel pc
  have paid := settled a (List.mem_of_getElem? found)
  have gone : nextSystem cfg arith s .send = some (s.failedSend, none) →
      ∃ ts s', Lull cfg arith s ts s' ∧ s'.pc = .readCap ∧ s'.inner = s.inner.release ∧
        s'.now = s.now ∧ s'.Settled := by
    intro sent
    refine ⟨_, _, .cons inv (.nil _) sent rfl rfl ?_ ?_, rfl, rfl, rfl, settled⟩ <;> simp
  cases phase : a.phase with
  | entered | atGate | admitted | waking => simp [phase, Phase.Awaits] at state
  | unwinding | finished =>
      apply gone
      simp [nextSystem, pc, found, phase]
  | inQueue pendingId stage slot =>
      cases slot with
      | some ticket => simp [phase, Phase.Awaits] at state
      | none =>
          cases stage with
          | pushed | stamped => simp [phase, Phase.owesNotify] at paid
          | polling since =>
              let i := sel.pending.tx
              let ticket : Ticket := ⟨sel.flowId, sel.workUnit⟩
              let waiting : Admission :=
                { a with phase := .inQueue pendingId (.polling since) (some ticket) }
              let holding : Admission := { a with phase := .admitted ticket }
              let leaving : Admission := { a with phase := .waking none }
              let t₁ := s.deliverTicket sel a pendingId (.polling since)
              let t₂ := t₁.receive i waiting ticket
              let t₃ := t₂.dropTicket i holding ticket
              let t₄ := t₃.wake i leaving none
              have row : ∀ b c : Admission, ((s.admissions.set i b).set i c)[i]? = some c := by
                intro b c
                rw [List.set_set, Slots.getElem?_set found, if_pos rfl]
              have found₁ : t₁.admissions[i]? = some waiting := by
                have written := Slots.getElem?_set found waiting i
                rwa [if_pos rfl] at written
              have found₂ : t₂.admissions[i]? = some holding := row _ _
              have found₃ : t₃.admissions[i]? = some leaving := by
                have written := Slots.getElem?_set found₂ leaving i
                rwa [if_pos rfl] at written
              have step₁ : nextSystem cfg arith s .send = some (t₁, none) := by
                simp [nextSystem, pc, found, phase, t₁]
              have step₂ : nextSystem cfg arith t₁ (.receive i) = some (t₂, none) := by
                simp [nextSystem, found₁, waiting, t₂]
              have step₃ : nextSystem cfg arith t₂ (.dropTicket i) = some (t₃, none) := by
                simp [nextSystem, found₂, holding, t₃]
              have step₄ : nextSystem cfg arith t₃ (.wake i) = some (t₄, none) := by
                simp [nextSystem, found₃, leaving, t₄]
              have reach₁ : (scheduler cfg arith).Reachable t₁ := reach.step (a := .send) step₁
              have reach₂ : (scheduler cfg arith).Reachable t₂ :=
                reach₁.step (a := .receive i) step₂
              have reach₃ : (scheduler cfg arith).Reachable t₃ :=
                reach₂.step (a := .dropTicket i) step₃
              have lull₄ := Lull.cons (SystemInv.reachable reach₃) (.nil _) step₄ rfl rfl
                (by simp) (by simp)
              have lull₃ := Lull.cons (SystemInv.reachable reach₂) lull₄ step₃ rfl rfl
                (by simp) (by simp)
              have lull₂ := Lull.cons (SystemInv.reachable reach₁) lull₃ step₂ rfl rfl
                (by simp) (by simp)
              have lull₁ := Lull.cons inv lull₂ step₁ rfl rfl (by simp) (by simp)
              refine ⟨_, t₄, lull₁, rfl, rfl, rfl, ?_⟩
              refine settled.set (i := i) (a := { a with phase := .finished }) rfl ?_
              change (((s.admissions.set i waiting).set i holding).set i leaving).set i _ = _
              simp only [List.set_set]
              rfl

/-- After a round the loop gets back to its start with every permit home. -/
theorem settle_round (reach : (scheduler cfg arith).Reachable s) {cap : Nat} {t : System}
    {r : Round} (spec : RoundSpec (t.selectEnv cfg arith cap) t.registry t.inner r)
    (after : s = t.afterRound r) (home : t.inner.availablePermits = t.inner.maxPermits)
    (settled : s.Settled) (credited : r.selection = none → r.creditAccumulated = true) :
    ∃ ts s', Lull cfg arith s ts s' ∧ s'.pc = .readCap ∧ s'.now = s.now ∧ s'.Settled ∧
      s'.inner = { s.inner with availablePermits := s.inner.maxPermits } := by
  have permits := spec.permits
  have budget := spec.budget
  have inner : s.inner = r.state := by rw [after]; rfl
  cases selected : r.selection with
  | none =>
      have pc : s.pc = .readCap := by
        rw [after]
        simp [System.afterRound, selected, credited selected]
      refine ⟨[], s, .nil s, pc, rfl, settled, ?_⟩
      have full : s.inner.maxPermits = s.inner.availablePermits := by
        rw [inner, budget, ← home, ← permits, selected]
        rfl
      rw [full]
  | some sel =>
      have pc : s.pc = .send sel := by
        rw [after]
        simp [System.afterRound, selected]
      obtain ⟨ts, s', lull, pc', inner', clock, settled'⟩ := drain reach pc settled
      refine ⟨ts, s', lull, pc', clock, settled', ?_⟩
      have full : s.inner.maxPermits = s.inner.availablePermits + 1 := by
        rw [inner, budget, ← home, ← permits, selected]
        rfl
      rw [inner', full]
      rfl

theorem queue_request (reach : (scheduler cfg arith).Reachable s)
    (blocking : cfg.backpressure.mode = .blocking) (settled : s.Settled) (f : FlowId) (cost : F64) :
    ∃ early i t₂ t₃ late s', Lull cfg arith s early t₂ ∧
      nextSystem cfg arith t₂ (.enqueue i) =
        some (t₃, some (.enqueued i f ⟨s.inner.nextPendingId, i, s.now, cost⟩)) ∧
      Lull cfg arith t₃ late s' ∧ t₃.inner = s.inner.enqueue f i s.now cost ∧
      s'.inner = t₃.inner ∧ s'.pc = s.pc ∧ s'.now = s.now ∧ s'.notified = true ∧ s'.Settled := by
  let i := s.admissions.length
  let id := s.inner.nextPendingId
  let at_ (phase : Phase) : Admission := ⟨f, cost, s.now, phase⟩
  let t₁ := s.arrive f cost
  let t₂ := t₁.createGuard i (at_ .entered)
  let t₃ := t₂.enqueue i (at_ .atGate)
  let t₄ := t₃.stamp i (at_ (.inQueue id .pushed none)) id none
  let t₅ := t₄.notify i (at_ (.inQueue id .stamped none)) id none
  have found₁ : t₁.admissions[i]? = some (at_ .entered) := List.getElem?_concat_length
  have found₂ : t₂.admissions[i]? = some (at_ .atGate) := by
    have written := Slots.getElem?_set found₁ (at_ .atGate) i
    rwa [if_pos rfl] at written
  have found₃ : t₃.admissions[i]? = some (at_ (.inQueue id .pushed none)) := by
    have written := Slots.getElem?_set found₂ (at_ (.inQueue id .pushed none)) i
    rwa [if_pos rfl] at written
  have found₄ : t₄.admissions[i]? = some (at_ (.inQueue id .stamped none)) := by
    have written := Slots.getElem?_set found₃ (at_ (.inQueue id .stamped none)) i
    rwa [if_pos rfl] at written
  have step₁ : nextSystem cfg arith s (.arrive f cost) = some (t₁, none) := by
    simp [nextSystem, System.rejects, blocking, t₁]
  have step₂ : nextSystem cfg arith t₁ (.createGuard i) = some (t₂, none) := by
    simp [nextSystem, found₁, at_, t₂]
  have step₃ : nextSystem cfg arith t₂ (.enqueue i) =
      some (t₃, some (.enqueued i f ⟨id, i, s.now, cost⟩)) := by
    simp only [nextSystem, found₂, at_]
    rfl
  have step₄ : nextSystem cfg arith t₃ (.stamp i) = some (t₄, none) := by
    simp [nextSystem, found₃, at_, t₄]
  have step₅ : nextSystem cfg arith t₄ (.notify i) = some (t₅, none) := by
    simp [nextSystem, found₄, at_, t₅]
  have reach₁ : (scheduler cfg arith).Reachable t₁ := reach.step (a := Action.arrive f cost) step₁
  have reach₂ : (scheduler cfg arith).Reachable t₂ :=
    reach₁.step (a := Action.createGuard i) step₂
  have reach₃ : (scheduler cfg arith).Reachable t₃ := reach₂.step (a := Action.enqueue i) step₃
  have reach₄ : (scheduler cfg arith).Reachable t₄ := reach₃.step (a := Action.stamp i) step₄
  have guarded := Lull.cons (SystemInv.reachable reach₁) (.nil t₂) step₂ rfl rfl
    (by simp) (by simp)
  have lull := Lull.cons (SystemInv.reachable reach) guarded step₁ rfl rfl (by simp) (by simp)
  have notified := Lull.cons (SystemInv.reachable reach₄) (.nil t₅) step₅ rfl rfl
    (by simp) (by simp)
  have lull' := Lull.cons (SystemInv.reachable reach₃) notified step₄ rfl rfl (by simp) (by simp)
  refine ⟨_, i, t₂, t₃, _, t₅, lull, step₃, lull', rfl, rfl, rfl, rfl, rfl, ?_⟩
  have arrived : t₁.Settled := by
    intro a member
    cases List.mem_append.mp member with
    | inl old => exact settled a old
    | inr new =>
        obtain rfl := List.mem_singleton.mp new
        rfl
  refine arrived.set (i := i) (a := at_ (.inQueue id (.polling s.now) none)) rfl ?_
  change (((t₁.admissions.set i _).set i _).set i _).set i _ = _
  simp only [List.set_set]
  rfl

end TinyLlb
