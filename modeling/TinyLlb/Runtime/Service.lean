import TinyLlb.Library.Server
import TinyLlb.Runtime.Drain

/-! # The scheduler as a server with lines

Seen from outside, the scheduler is a server with one line for each flow. An
admission joins the line of its flow with its push, is granted when the loop
takes its request off the queue, and leaves when its permit goes back, whether
the ticket was used, died in its channel or could not be sent. Everything else
that the tasks do is invisible from there. So each admission leads one of the
lives that a customer of the server can lead.
-/

namespace TinyLlb

open Server (Place Move)

namespace System

/-- The loop has popped the request of this admission and not sent its ticket. -/
def inHand (s : System) (i : Nat) : Bool :=
  match s.pc with
  | .send selection => decide (selection.pending.tx = i)
  | _ => false

def isQueued (s : System) (i : Nat) (f : FlowId) : Bool :=
  (s.inner.queue f).any fun p => decide (p.tx = i)

/-- Where an admission stands that is not in the hands of the loop. -/
def standing (isQueued : Bool) : Phase → Place
  | .entered | .atGate => .outside
  | .inQueue _ _ (some _) | .admitted _ => .served
  | .inQueue _ _ none | .unwinding _ => if isQueued then .waiting else .gone
  | .waking _ | .finished => .gone

def place (s : System) (i : Nat) : Place :=
  if s.inHand i then .served
  else
    match s.admissions[i]? with
    | none => .outside
    | some a => standing (s.isQueued i a.flowId) a.phase

/-- The scheduler as it is seen from outside. -/
def view (s : System) : Server.State FlowId Nat :=
  { line := fun f => (s.inner.queue f).map Pending.tx
    place := s.place
    busy := s.inner.outstanding }

/-- What an action without an event of its own amounts to. -/
def silentMoves (s : System) : Action → List (Move FlowId Nat)
  | .cancel i | .timeout i =>
      match s.admissions[i]?.map Admission.phase with
      | some .atGate => [.balk i]
      | some (.inQueue _ _ (some _)) => [.leave i]
      | _ => []
  | .dropTicket i => [.leave i]
  | .send =>
      match s.pc with
      | .send selection =>
          match s.admissions[selection.pending.tx]?.map Admission.phase with
          | some (.inQueue _ _ _) => []
          | _ => [.leave selection.pending.tx]
      | _ => []
  | _ => []

/-- What a step of the scheduler amounts to. -/
def moves (tr : Transition System Action Event) : List (Move FlowId Nat) :=
  match tr.event with
  | some (.enqueued i f _) => [.join f i]
  | some (.selected selection _) => [.grant selection.flowId selection.pending.tx]
  | some (.cancelled i f removed) => if removed.isEmpty then [] else [.withdraw f i]
  | _ => tr.pre.silentMoves tr.action

end System

variable {cfg : Config} {arith : I64Arith} {s t : System} {action : Action} {event : Option Event}

namespace System

theorem isQueued_iff {i : Nat} {f : FlowId} :
    s.isQueued i f = true ↔ ∃ p ∈ s.inner.queue f, p.tx = i := by
  simp [isQueued]

theorem inHand_iff {i : Nat} :
    s.inHand i = true ↔ ∃ sel, s.pc = .send sel ∧ sel.pending.tx = i := by
  unfold inHand
  cases s.pc <;> simp

theorem place_of_found {i : Nat} {a : Admission} (found : s.admissions[i]? = some a) :
    s.place i = if s.inHand i then .served else standing (s.isQueued i a.flowId) a.phase := by
  simp only [place, found]

/-- A step that concerns one admission leaves the others where they stand. -/
theorem place_update {i : Nat}
    (rows : ∀ j, j ≠ i → t.admissions[j]? = s.admissions[j]?)
    (isQueued : ∀ j f, j ≠ i → t.isQueued j f = s.isQueued j f)
    (inHand : ∀ j, j ≠ i → t.inHand j = s.inHand j) :
    t.place = Function.update s.place i (t.place i) := by
  funext j
  by_cases same : j = i
  · subst j
    rw [Function.update_self]
  · rw [Function.update_of_ne same]
    simp only [place, rows j same, inHand j same, isQueued j _ same]

theorem rows_of_set {i : Nat} {a : Admission} {q : Phase} (found : s.admissions[i]? = some a)
    (admissions : t.admissions = s.admissions.set i { a with phase := q }) :
    t.admissions[i]? = some { a with phase := q } ∧
      ∀ j, j ≠ i → t.admissions[j]? = s.admissions[j]? := by
  rw [admissions]
  refine ⟨by rw [Slots.getElem?_set found, if_pos rfl], ?_⟩
  intro j other
  rw [Slots.getElem?_set found, if_neg other]

theorem place_of_set {i : Nat} {a : Admission} {q : Phase} (found : s.admissions[i]? = some a)
    (admissions : t.admissions = s.admissions.set i { a with phase := q })
    (queue : t.inner.queue = s.inner.queue) (pc : t.pc = s.pc) :
    t.place = Function.update s.place i
      (if s.inHand i then .served else standing (s.isQueued i a.flowId) q) := by
  obtain ⟨row, rows⟩ := rows_of_set found admissions
  have isQueued : ∀ j f, t.isQueued j f = s.isQueued j f := by
    intro j f
    simp only [System.isQueued, queue]
  have inHand : ∀ j, t.inHand j = s.inHand j := by
    intro j
    simp only [System.inHand, pc]
  rw [place_update rows (fun j f _ => isQueued j f) fun j _ => inHand j, place_of_found row, inHand,
    isQueued]

theorem view_of_set {i : Nat} {a : Admission} {phase : Phase} (found : s.admissions[i]? = some a)
    (admissions : t.admissions = s.admissions.set i { a with phase })
    (queue : t.inner.queue = s.inner.queue) (pc : t.pc = s.pc)
    (busy : t.inner.outstanding = s.inner.outstanding)
    (same : standing (s.isQueued i a.flowId) phase = standing (s.isQueued i a.flowId) a.phase) :
    t.view = s.view := by
  unfold view
  rw [place_of_set found admissions queue pc, same, ← place_of_found found,
    Function.update_eq_self, queue, busy]

theorem view_of_frame (admissions : t.admissions = s.admissions)
    (queue : t.inner.queue = s.inner.queue) (inHand : ∀ i, t.inHand i = s.inHand i)
    (busy : t.inner.outstanding = s.inner.outstanding) : t.view = s.view := by
  have place : t.place = s.place := by
    funext i
    simp only [System.place, isQueued, admissions, queue, inHand]
  simp only [view, queue, place, busy]

end System

namespace Links

open TinyLlb.System

theorem not_inHand (links : Links s) {i : Nat} {a : Admission} (found : s.admissions[i]? = some a)
    (past : ∀ id, ¬ a.phase.Awaits id) (alive : a.phase ≠ .finished) : s.inHand i = false := by
  rw [Bool.eq_false_iff, ne_eq, inHand_iff]
  rintro ⟨sel, pc, mine⟩
  obtain ⟨b, foundB, -, state⟩ := links.inHand sel pc
  rw [mine, found, Option.some.injEq] at foundB
  subst b
  exact state.elim (past _) alive

theorem not_isQueued (links : Links s) {i : Nat} {a : Admission} (found : s.admissions[i]? = some a)
    (past : ∀ id, ¬ a.phase.Awaits id) (f : FlowId) : s.isQueued i f = false := by
  rw [Bool.eq_false_iff, ne_eq, isQueued_iff]
  rintro ⟨p, queued, mine⟩
  obtain ⟨b, foundB, waits⟩ := links.queued f p queued
  rw [mine, found, Option.some.injEq] at foundB
  subst b
  exact past _ waits.awaits

theorem not_both (links : Links s) {i : Nat} (hand : s.inHand i = true) (f : FlowId) :
    s.isQueued i f = false := by
  obtain ⟨sel, pc, mine⟩ := inHand_iff.mp hand
  obtain ⟨a, found, -, state⟩ := links.inHand sel pc
  rw [Bool.eq_false_iff, ne_eq, isQueued_iff]
  rintro ⟨p, queued, same⟩
  obtain ⟨b, foundB, waits⟩ := links.queued f p queued
  rw [same, ← mine, found, Option.some.injEq] at foundB
  subst b
  rcases state with awaits | finished
  · have carries := Phase.guardId_of_awaits awaits
    rw [Phase.guardId_of_awaits waits.awaits, Option.some.injEq] at carries
    exact (links.popped sel pc).2 f p queued carries
  · have awaits := waits.awaits
    rw [finished] at awaits
    exact awaits

end Links

/-- What one step amounts to for the server. -/
inductive Serves (limit : Nat) (s t : System) : List (Move FlowId Nat) → Prop where
  | unseen (same : t.view = s.view) : Serves limit s t []
  | move {move} (next : Server.next limit s.view move = some t.view) : Serves limit s t [move]

namespace Serves

open TinyLlb.System

variable {limit : Nat}

theorem exec {shown : List (Move FlowId Nat)} (serves : Serves limit s t shown) :
    ∃ us, (Server.machine FlowId Nat limit).Exec s.view us t.view ∧ Machine.events us = shown := by
  cases serves with
  | unseen same => exact ⟨[], same ▸ .nil, rfl⟩
  | @move move next =>
      have step : (Server.machine FlowId Nat limit).next s.view move = some (t.view, some move) := by
        simp only [Server.machine, next, Option.map_some]
      exact ⟨_, .single step, rfl⟩

theorem balk {i : Nat} {a : Admission} (links : Links s) (found : s.admissions[i]? = some a)
    (phase : a.phase = .atGate) :
    Serves limit s (s.setPhase i a (.unwinding none)) [.balk i] := by
  have free : s.inHand i = false :=
    links.not_inHand found (by simp [phase, Phase.Awaits]) (by simp [phase])
  have absent : s.isQueued i a.flowId = false :=
    links.not_isQueued found (by simp [phase, Phase.Awaits]) _
  have outside : s.view.place i = .outside := by
    change s.place i = _
    rw [place_of_found found, free, phase]
    rfl
  refine .move ?_
  rw [Server.next, if_pos outside, Option.some.injEq]
  refine Server.State.ext rfl ?_ rfl
  have moved := place_of_set (t := s.setPhase i a (.unwinding none)) found rfl rfl rfl
  rw [free, absent] at moved
  exact moved.symm

theorem join {i : Nat} {a : Admission} (links : Links s) (found : s.admissions[i]? = some a)
    (phase : a.phase = .atGate) : Serves limit s (s.enqueue i a) [.join a.flowId i] := by
  have free : s.inHand i = false :=
    links.not_inHand found (by simp [phase, Phase.Awaits]) (by simp [phase])
  have outside : s.view.place i = .outside := by
    change s.place i = _
    rw [place_of_found found, free, phase]
    rfl
  have queue : ∀ f, (s.enqueue i a).inner.queue f = _ := DrrState.queue_enqueue _ _ _ _ _
  refine .move ?_
  rw [Server.next, if_pos outside, Option.some.injEq]
  refine Server.State.ext ?_ ?_ rfl
  · funext f
    change Function.update s.view.line a.flowId _ f = ((s.enqueue i a).inner.queue f).map Pending.tx
    rw [queue]
    by_cases same : f = a.flowId
    · subst f
      rw [Function.update_self, if_pos rfl, List.map_append]
      rfl
    · rw [Function.update_of_ne same, if_neg same]
      rfl
  · obtain ⟨row, rows⟩ := rows_of_set (t := s.enqueue i a) found rfl
    have others : ∀ j f, j ≠ i → (s.enqueue i a).isQueued j f = s.isQueued j f := by
      intro j f other
      simp only [isQueued, queue]
      split
      · subst f
        simp [other.symm]
      · rfl
    have own : (s.enqueue i a).isQueued i a.flowId = true := by
      rw [isQueued_iff, queue, if_pos rfl]
      exact ⟨_, List.mem_append_right _ (List.mem_singleton.mpr rfl), rfl⟩
    have moved := place_update rows others fun _ _ => rfl
    have hand : (s.enqueue i a).inHand i = false := free
    rw [place_of_found row, hand, own] at moved
    exact moved.symm

theorem leave {i : Nat} (served : s.place i = .served)
    (queue : t.inner.queue = s.inner.queue)
    (place : t.place = Function.update s.place i .gone)
    (freed : t.inner.outstanding = s.inner.outstanding - 1) : Serves limit s t [.leave i] := by
  have serving : s.view.place i = .served := served
  refine .move ?_
  rw [Server.next, if_pos serving, Option.some.injEq]
  refine Server.State.ext ?_ place.symm freed.symm
  funext f
  change (s.inner.queue f).map Pending.tx = (t.inner.queue f).map Pending.tx
  rw [queue]

theorem leave_of_set {i : Nat} {a : Admission} {q : Phase} (links : Links s)
    (found : s.admissions[i]? = some a) (served : ∀ queued, standing queued a.phase = .served)
    (gone : ∀ queued, standing queued q = .gone) (past : ∀ id, ¬ a.phase.Awaits id)
    (admissions : t.admissions = s.admissions.set i { a with phase := q })
    (queue : t.inner.queue = s.inner.queue) (pc : t.pc = s.pc)
    (freed : t.inner.outstanding = s.inner.outstanding - 1) : Serves limit s t [.leave i] := by
  have alive : a.phase ≠ .finished := by
    intro finished
    have stands := served false
    simp [finished, standing] at stands
  have free := links.not_inHand found past alive
  have moved := place_of_set found admissions queue pc
  rw [free, gone] at moved
  refine leave ?_ queue moved freed
  rw [place_of_found found, free, served]
  rfl

theorem release_outstanding (inner : DrrState) :
    inner.release.outstanding = inner.outstanding - 1 := by
  simp only [DrrState.outstanding, DrrState.release]
  omega

theorem dropGuard {i : Nat} {a : Admission} {pendingId : Option Nat} (links : Links s)
    (found : s.admissions[i]? = some a) (phase : a.phase = .unwinding pendingId) :
    Serves limit s (s.dropGuard i a pendingId)
      (if ((s.inner.queue a.flowId).filter fun p => decide (pendingId = some p.pendingId)).isEmpty
        then [] else [.withdraw a.flowId i]) := by
  obtain ⟨row, rows⟩ := rows_of_set (t := s.dropGuard i a pendingId) (q := .finished) found rfl
  have queue : ∀ f, (s.dropGuard i a pendingId).inner.queue f = _ :=
    fun f => links.queue_dropGuard found phase f
  have others : ∀ j f, j ≠ i → (s.dropGuard i a pendingId).isQueued j f = s.isQueued j f := by
    intro j f other
    rw [Bool.eq_iff_iff, isQueued_iff, isQueued_iff, queue]
    constructor
    · rintro ⟨p, member, mine⟩
      exact ⟨p, (List.mem_filter.mp member).1, mine⟩
    · rintro ⟨p, member, mine⟩
      refine ⟨p, List.mem_filter.mpr ⟨member, ?_⟩, mine⟩
      simpa [mine] using other
  have busy : (s.dropGuard i a pendingId).inner.outstanding = s.inner.outstanding := by
    obtain ⟨-, permits, budget⟩ := DrrState.dropGuard_counters s.inner a.flowId pendingId
    simp only [System.dropGuard, DrrState.outstanding, permits, budget]
  have hand : (s.dropGuard i a pendingId).inHand i = s.inHand i := rfl
  have moved := place_update rows others fun _ _ => rfl
  rw [place_of_found row, hand] at moved
  have lines : ∀ f, ((s.dropGuard i a pendingId).inner.queue f).map Pending.tx =
      ((s.inner.queue f).map Pending.tx).filter fun j => decide (j ≠ i) := by
    intro f
    rw [queue, List.filter_map]
    rfl
  by_cases mine : s.isQueued i a.flowId = true
  · -- The request was still queued and goes with its guard.
    obtain ⟨p, queued, own⟩ := isQueued_iff.mp mine
    have carries := ((links.own_iff found phase queued).mp own).2
    have some_ : ((s.inner.queue a.flowId).filter fun p =>
        decide (pendingId = some p.pendingId)).isEmpty = false := by
      rw [List.isEmpty_eq_false_iff_exists_mem]
      exact ⟨p, List.mem_filter.mpr ⟨queued, by simpa using carries⟩⟩
    have free : s.inHand i = false := by
      rw [Bool.eq_false_iff]
      intro hand
      rw [links.not_both hand] at mine
      cases mine
    have inLine : i ∈ s.view.line a.flowId := List.mem_map.mpr ⟨p, queued, own⟩
    rw [some_, if_neg Bool.false_ne_true]
    refine .move ?_
    rw [Server.next, if_pos inLine, Option.some.injEq]
    refine Server.State.ext ?_ ?_ busy.symm
    · funext f
      change Function.update s.view.line a.flowId _ f =
        ((s.dropGuard i a pendingId).inner.queue f).map Pending.tx
      rw [lines]
      by_cases same : f = a.flowId
      · subst f
        rw [Function.update_self]
        rfl
      · rw [Function.update_of_ne same]
        symm
        apply List.filter_eq_self.mpr
        intro j inF
        obtain ⟨q, queuedQ, rfl⟩ := List.mem_map.mp inF
        simp only [decide_eq_true_eq]
        intro own
        exact same ((links.own_iff found phase queuedQ).mp own).1
    · rw [free] at moved
      exact moved.symm
  · -- It had been popped before, or had never been pushed.
    have none_ : ((s.inner.queue a.flowId).filter fun p =>
        decide (pendingId = some p.pendingId)).isEmpty = true := by
      rw [List.isEmpty_iff, List.filter_eq_nil_iff]
      intro p queued carries
      apply mine
      rw [isQueued_iff]
      exact ⟨p, queued, (links.own_iff found phase queued).mpr ⟨rfl, by simpa using carries⟩⟩
    have absent : s.isQueued i a.flowId = false := Bool.eq_false_iff.mpr mine
    rw [none_, if_pos rfl]
    refine .unseen (Server.State.ext ?_ ?_ busy)
    · funext f
      change ((s.dropGuard i a pendingId).inner.queue f).map Pending.tx =
        (s.inner.queue f).map Pending.tx
      rw [lines]
      apply List.filter_eq_self.mpr
      intro j inF
      obtain ⟨q, queuedQ, rfl⟩ := List.mem_map.mp inF
      simp only [decide_eq_true_eq]
      intro own
      obtain ⟨rfl, -⟩ := (links.own_iff found phase queuedQ).mp own
      exact mine (isQueued_iff.mpr ⟨q, queuedQ, own⟩)
    · have before := place_of_found found
      rw [absent, phase] at before
      change (s.dropGuard i a pendingId).place = s.place
      rw [moved]
      apply Function.update_eq_self_iff.mpr
      rw [before]
      rfl

theorem grant {cap : Nat} {r : Round} {selection : Selection} (inv : SystemInv cfg s)
    (pc : s.pc = .select cap)
    (spec : RoundSpec (s.selectEnv cfg arith cap) s.registry s.inner r)
    (selected : r.selection = some selection) :
    Serves cfg.scheduler.maxActiveFlows.toNat s (s.afterRound r)
      [.grant selection.flowId selection.pending.tx] := by
  obtain ⟨under, rest, served⟩ := spec.served selected
  have room : s.inner.outstanding < cfg.scheduler.maxActiveFlows.toNat := by
    have most := inv.caps cap (by simp [pc, LoopPc.cap?])
    rw [inv.budget] at most
    exact lt_of_lt_of_le under most
  have queue : ∀ f, (s.afterRound r).inner.queue f = _ := served.queue
  have holds : (s.afterRound r).pc = .send selection := by simp [System.afterRound, selected]
  have line : s.view.line selection.flowId = selection.pending.tx :: rest.map Pending.tx := by
    simp only [view, served.head, List.map_cons]
  have permit : (s.afterRound r).inner.outstanding = s.inner.outstanding + 1 := by
    have permits := inv.permits
    have taken := served.permits
    have budget := served.budget
    change r.state.maxPermits - r.state.availablePermits = _
    unfold DrrState.outstanding
    omega
  refine .move ?_
  rw [Server.next, if_pos ⟨by rw [line]; rfl, room⟩, Option.some.injEq]
  refine Server.State.ext ?_ ?_ permit.symm
  · funext f
    change Function.update s.view.line selection.flowId (s.view.line selection.flowId).tail f =
      ((s.afterRound r).inner.queue f).map Pending.tx
    rw [queue, line, List.tail_cons]
    by_cases same : f = selection.flowId
    · subst f
      rw [Function.update_self, if_pos rfl]
    · rw [Function.update_of_ne same, if_neg same]
      rfl
  · have others : ∀ j f, j ≠ selection.pending.tx → (s.afterRound r).isQueued j f = s.isQueued j f := by
      intro j f other
      simp only [isQueued, queue]
      split
      · subst f
        simp [served.head, other.symm]
      · rfl
    have free : ∀ j, s.inHand j = false := fun j => by simp [inHand, pc]
    have hand : ∀ j, (s.afterRound r).inHand j = decide (selection.pending.tx = j) := fun j => by
      simp [inHand, holds]
    have moved := place_update (s := s) (t := s.afterRound r) (i := selection.pending.tx)
      (fun _ _ => rfl) others (by
        intro j other
        rw [free, hand]
        simpa using other.symm)
    have own : (s.afterRound r).place selection.pending.tx = .served := by
      simp [place, hand]
    rw [own] at moved
    exact moved.symm

theorem sendFailed {selection : Selection} {a : Admission} (links : Links s)
    (pc : s.pc = .send selection) (found : s.admissions[selection.pending.tx]? = some a)
    (gone : (∃ pendingId, a.phase = .unwinding pendingId) ∨ a.phase = .finished) :
    Serves limit s s.failedSend [.leave selection.pending.tx] := by
  have hand : s.inHand selection.pending.tx = true := inHand_iff.mpr ⟨selection, pc, rfl⟩
  have absent := links.not_both hand a.flowId
  have others : ∀ j, j ≠ selection.pending.tx → s.failedSend.inHand j = s.inHand j := by
    intro j other
    simpa [inHand, pc, failedSend] using other.symm
  have moved := place_update (s := s) (t := s.failedSend) (i := selection.pending.tx)
    (fun _ _ => rfl) (fun _ _ _ => rfl) others
  have after : s.failedSend.place selection.pending.tx = .gone := by
    have row : s.failedSend.admissions[selection.pending.tx]? = some a := found
    have same : s.failedSend.isQueued selection.pending.tx a.flowId = false := absent
    rw [place_of_found row, same]
    rcases gone with ⟨pendingId, phase⟩ | phase <;> simp [phase, standing, inHand, failedSend]
  rw [after] at moved
  refine leave ?_ rfl moved (release_outstanding _)
  simp [place, hand]

theorem unseen_of_set {i : Nat} {a : Admission} {q : Phase} {shown : List (Move FlowId Nat)}
    (found : s.admissions[i]? = some a) (stands : standing (s.isQueued i a.flowId) q =
      standing (s.isQueued i a.flowId) a.phase)
    (admissions : t.admissions = s.admissions.set i { a with phase := q })
    (queue : t.inner.queue = s.inner.queue) (pc : t.pc = s.pc)
    (busy : t.inner.outstanding = s.inner.outstanding) (silent : shown = []) :
    Serves limit s t shown := by
  subst silent
  exact .unseen (view_of_set found admissions queue pc busy stands)

theorem of_step (inv : SystemInv cfg s) (links : Links s) (step : Step cfg arith s action event t) :
    Serves cfg.scheduler.maxActiveFlows.toNat s t (moves ⟨s, action, event, t⟩) := by
  cases step with
  | @arrive f workUnit room =>
      refine .unseen ?_
      have free : s.inHand s.admissions.length = false := by
        rw [Bool.eq_false_iff, ne_eq, inHand_iff]
        rintro ⟨sel, pc, mine⟩
        obtain ⟨a, found, -⟩ := links.inHand sel pc
        simp [mine] at found
      have rows : ∀ j, j ≠ s.admissions.length →
          (s.arrive f workUnit).admissions[j]? = s.admissions[j]? := by
        intro j other
        simp only [System.arrive, List.getElem?_append]
        split
        · rfl
        · rw [List.getElem?_eq_none (by simp; omega), List.getElem?_eq_none (by omega)]
      have moved := place_update (s := s) (t := s.arrive f workUnit) rows (fun _ _ _ => rfl)
        fun _ _ => rfl
      have row : (s.arrive f workUnit).admissions[s.admissions.length]? =
          some ⟨f, workUnit, s.now, .entered⟩ := by
        simp [System.arrive]
      have hand : (s.arrive f workUnit).inHand s.admissions.length = false := free
      rw [place_of_found row, hand] at moved
      refine Server.State.ext rfl ?_ rfl
      change (s.arrive f workUnit).place = s.place
      rw [moved]
      apply Function.update_eq_self_iff.mpr
      simp [place, free, standing]
  | createGuard found phase =>
      exact unseen_of_set found (by rw [phase]; rfl) rfl rfl rfl rfl rfl
  | enqueue found phase => exact join links found phase
  | @stamp i a pendingId slot found phase =>
      refine unseen_of_set found ?_ rfl rfl rfl rfl rfl
      rw [phase]
      cases slot <;> rfl
  | @notify i a pendingId slot found phase =>
      refine unseen_of_set found ?_ rfl rfl rfl rfl rfl
      rw [phase]
      cases slot <;> rfl
  | receive found phase =>
      exact unseen_of_set found (by rw [phase]; rfl) rfl rfl rfl rfl rfl
  | leaveGate found phase =>
      have shown : Serves cfg.scheduler.maxActiveFlows.toNat s _ [.balk _] := balk links found phase
      simpa [moves, silentMoves, found, phase] using shown
  | @closeReceiver action i a pendingId since slot which found phase =>
      cases slot with
      | none =>
          refine unseen_of_set (t := s.closeReceiver i a pendingId none)
            (q := .unwinding (some pendingId)) found (by rw [phase]; rfl) rfl rfl rfl rfl ?_
          rcases which with rfl | rfl <;> simp [moves, silentMoves, found, phase]
      | some ticket =>
          have shown : Serves cfg.scheduler.maxActiveFlows.toNat s
              (s.closeReceiver i a pendingId (some ticket)) [.leave i] :=
            leave_of_set (q := .waking (some pendingId)) links found
              (by rw [phase]; exact fun _ => rfl) (fun _ => rfl) (by simp [phase, Phase.Awaits])
              rfl rfl rfl (release_outstanding _)
          rcases which with rfl | rfl <;> simpa [moves, silentMoves, found, phase] using shown
  | dropGuard found phase => exact dropGuard links found phase
  | dropTicket found phase =>
      exact leave_of_set links found (by rw [phase]; exact fun _ => rfl) (fun _ => rfl)
        (by simp [phase, Phase.Awaits]) rfl rfl rfl (release_outstanding _)
  | @wake i a pendingId found phase =>
      have absent := links.not_isQueued found (by simp [phase, Phase.Awaits]) a.flowId
      cases pendingId with
      | none =>
          exact unseen_of_set (t := s.wake i a none) (q := .finished) found
            (by rw [phase]; rfl) rfl rfl rfl rfl rfl
      | some id =>
          exact unseen_of_set (t := s.wake i a (some id)) (q := .unwinding (some id)) found
            (by rw [phase, absent]; rfl) rfl rfl rfl rfl rfl
  | wakeNotified pc | wakeChanged pc | wakeClosed pc | readCap pc | park pc | proceed pc =>
      exact .unseen (view_of_frame rfl rfl (fun i => by simp [inHand, pc]) rfl)
  | @round cap r pc spec =>
      cases selected : r.selection with
      | none =>
          have taken := spec.permits
          simp only [selected, Option.isSome_none, Bool.false_eq_true, if_false] at taken
          refine .unseen (view_of_frame rfl ?_ ?_ ?_)
          · funext f
            simp only [System.afterRound, DrrState.queue, (spec.waiting_eq selected).1]
          · intro i
            cases credited : r.creditAccumulated <;>
              simp [inHand, pc, System.afterRound, selected, credited]
          · change r.state.maxPermits - r.state.availablePermits = _
            have budget := spec.budget
            unfold DrrState.outstanding
            omega
      | some selection => exact grant inv pc spec selected
  | @sent selection a pendingId stage pc found phase =>
      obtain ⟨row, rows⟩ := rows_of_set (t := s.deliverTicket selection a pendingId stage) found rfl
      have others : ∀ j, j ≠ selection.pending.tx →
          (s.deliverTicket selection a pendingId stage).inHand j = s.inHand j := by
        intro j other
        simpa [inHand, pc, deliverTicket] using other.symm
      have moved := place_update rows (fun _ _ _ => rfl) others
      have hand : s.inHand selection.pending.tx = true := inHand_iff.mpr ⟨selection, pc, rfl⟩
      have silent : moves ⟨s, .send, none, s.deliverTicket selection a pendingId stage⟩ = [] := by
        simp [moves, silentMoves, pc, found, phase]
      rw [silent]
      refine .unseen (Server.State.ext rfl ?_ rfl)
      change (s.deliverTicket selection a pendingId stage).place = s.place
      rw [moved]
      apply Function.update_eq_self_iff.mpr
      rw [place_of_found row, place, hand]
      simp [inHand, deliverTicket, standing]
  | @sendFailed selection a pc found gone =>
      have shown : Serves cfg.scheduler.maxActiveFlows.toNat s s.failedSend
          [.leave selection.pending.tx] := sendFailed links pc found gone
      have visible : moves ⟨s, .send, none, s.failedSend⟩ = [.leave selection.pending.tx] := by
        rcases gone with ⟨pendingId, phase⟩ | phase <;>
          simp [moves, silentMoves, pc, found, phase]
      rw [visible]
      exact shown
  | _ => exact .unseen rfl

end Serves

theorem view_start (cfg : Config) : (System.start cfg).view = Server.State.start := by
  refine Server.State.ext rfl ?_ ?_
  · funext i
    simp [System.view, System.place, System.inHand, System.start, Server.State.start]
  · simp [System.view, System.start, DrrState.new, DrrState.outstanding, Server.State.start]

/-- The moves of a run are those of a run of the server, which ends as the
    scheduler is seen from outside. So the moves of each admission are one of the
    lives of a customer, the grants of a flow come in the order of its pushes,
    and grants outnumber departures by the permits that are out. In a system
    that has run dry every life has come to its end. -/
theorem refines_server (cfg : Config) (arith : I64Arith) {ts s}
    (run : (scheduler cfg arith).Exec (System.start cfg) ts s) :
    (∃ us, (Server.machine FlowId Nat cfg.scheduler.maxActiveFlows.toNat).Exec Server.State.start
        us s.view ∧ Machine.events us = ts.flatMap System.moves) ∧
      (∀ i, Server.Life i (s.place i) (Server.lifeOf i (ts.flatMap System.moves))) ∧
      (∀ f, (Server.grantsOf f (ts.flatMap System.moves) ++
        (s.inner.queue f).map Pending.tx).Sublist (Server.joinsOf f (ts.flatMap System.moves))) ∧
      (ts.flatMap System.moves).countP Move.isGrant =
        (ts.flatMap System.moves).countP Move.isLeave + s.inner.outstanding ∧
      s.inner.outstanding ≤ cfg.scheduler.maxActiveFlows.toNat ∧
      (Drained cfg arith s → ∀ i, i < s.admissions.length → s.place i = .gone) := by
  have simulated : ∃ us, (Server.machine FlowId Nat cfg.scheduler.maxActiveFlows.toNat).Exec
      (System.start cfg).view us s.view ∧ Machine.events us = ts.flatMap System.moves := by
    refine run.simulate (I := (scheduler cfg arith).Reachable) System.view System.moves (.start _)
      (fun reach step => reach.step step) ?_
    intro v a w e reach step
    have inv := SystemInv.reachable reach
    exact (Serves.of_step inv (Links.reachable reach) (inv.step_of_next step)).exec
  rw [view_start] at simulated
  obtain ⟨us, served, shown⟩ := simulated
  have account := Server.Account.of_run served
  rw [shown] at account
  refine ⟨⟨us, served, shown⟩, account.life, account.fifo, account.balance, account.room, ?_⟩
  intro drained i bound
  have found : s.admissions[i]? = some s.admissions[i] := List.getElem?_eq_getElem bound
  have finished := drained.finished _ (List.getElem_mem bound)
  rw [System.place_of_found found, finished]
  simp [System.inHand, drained.parked, System.standing]

/-- Of two requests of a flow the second one is withdrawn and the first one is
    granted; a third call goes away before its push. -/
theorem refines_server_three_lives :
    let m := scheduler .default .wrapping
    let actions : List Action :=
      [.arrive ⟨"a"⟩ (.fin 1), .createGuard 0, .enqueue 0, .stamp 0, .notify 0,
        .arrive ⟨"a"⟩ (.fin 1), .createGuard 1, .enqueue 1, .stamp 1, .notify 1,
        .arrive ⟨"b"⟩ (.fin 1), .createGuard 2, .cancel 2, .cancel 1, .dropGuard 1, .wakeNotified,
        .readCap, .readState, .trySelect]
    let history := (m.trace actions).flatMap System.moves
    history = [.join ⟨"a"⟩ 0, .join ⟨"a"⟩ 1, .balk 2, .withdraw ⟨"a"⟩ 1, .grant ⟨"a"⟩ 0] ∧
      ∀ i, Server.Life i ((m.after actions).place i) (Server.lifeOf i history) := by
  intro m actions history
  refine ⟨by decide +kernel, ?_⟩
  exact (refines_server .default .wrapping (Machine.exec_after _ actions)).2.1

end TinyLlb
