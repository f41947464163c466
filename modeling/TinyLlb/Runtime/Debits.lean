import TinyLlb.Runtime.Links

/-! # Which admissions have been debited

A selection debits the flow of the request it pops. `chosen` lists the admissions
of the popped requests in the order of the selections. Each of them is chosen
once: a chosen request is in no queue any more and is not pushed a second time.
Whoever holds a ticket, or has one in its channel, has been chosen.
-/

namespace TinyLlb

variable {cfg : Config} {arith : I64Arith} {s s' : System} {action : Action} {event : Option Event}

/-- The admissions of the selected requests. -/
def chosen (es : List Event) : List Nat :=
  es.filterMap fun
    | .selected selection _ => some selection.pending.tx
    | _ => none

@[simp] theorem chosen_append (before after : List Event) :
    chosen (before ++ after) = chosen before ++ chosen after := List.filterMap_append

@[simp] theorem chosen_selected (selection : Selection) (forced : Bool) :
    chosen (some (Event.selected selection forced)).toList = [selection.pending.tx] := rfl

theorem chosen_other (other : ∀ selection forced, event ≠ some (.selected selection forced)) :
    chosen event.toList = [] := by
  cases event with
  | none => rfl
  | some e =>
      cases e with
      | selected selection forced => exact absurd rfl (other selection forced)
      | _ => rfl

namespace Phase

/-- The request of the admission has been pushed. A finished admission may be
    one that gave up before. -/
def pastPush : Phase → Bool
  | .entered | .atGate | .unwinding none => false
  | _ => true

/-- The caller has had its ticket, or the call is over. -/
def received : Phase → Bool
  | .admitted _ | .waking none | .finished => true
  | _ => false

/-- Where an admission can get from a phase. -/
structure Leads (p q : Phase) : Prop where
  past : p.pastPush = true → q.pastPush = true
  received : p.received = true → q.received = true
  ended : p = .finished → q = .finished

theorem Leads.refl (p : Phase) : Leads p p := ⟨id, id, id⟩

theorem Leads.trans {p q r : Phase} (first : Leads p q) (second : Leads q r) : Leads p r where
  past := fun past => second.past (first.past past)
  received := fun received => second.received (first.received received)
  ended := fun ended => second.ended (first.ended ended)

theorem Leads.of_waiting {p q : Phase} (waiting : p.received = false)
    (past : p.pastPush = true → q.pastPush = true) : Leads p q := by
  refine ⟨past, ?_, ?_⟩
  · intro received
    simp [waiting] at received
  · rintro rfl
    simp [Phase.received] at waiting

theorem pastPush_of_awaits {p : Phase} {id : Nat} (awaits : p.Awaits id) : p.pastPush = true := by
  cases p with
  | inQueue => rfl
  | unwinding pendingId =>
      cases pendingId with
      | none => cases awaits
      | some _ => rfl
  | entered | atGate | admitted | waking | finished => cases awaits

end Phase

/-- What a step of the system can make of the admission with number `j`. -/
structure Onward (s : System) (j : Nat) (a b : Admission) : Prop where
  flow : b.flowId = a.flowId
  workUnit : b.workUnit = a.workUnit
  leads : a.phase.Leads b.phase
  ticket : b.phase.ticket? ≠ none →
    a.phase.ticket? ≠ none ∨ ∃ sel, s.pc = .send sel ∧ sel.pending.tx = j

theorem Onward.refl (s : System) (j : Nat) (a : Admission) : Onward s j a a :=
  ⟨rfl, rfl, .refl _, .inl⟩

namespace PhaseMove

variable {i : Nat} {p q : Phase}

theorem leads (move : PhaseMove s i action p q) : p.Leads q := by
  cases move with
  | createGuard | leaveGate => exact .of_waiting rfl (by simp [Phase.pastPush])
  | enqueue | stamp | notify | receive | closeEmpty | closeFull | wakeGuard | sent =>
      exact .of_waiting rfl fun _ => rfl
  | dropGuard | wakeLast => exact ⟨fun _ => rfl, fun _ => rfl, fun _ => rfl⟩
  | dropTicket => exact ⟨fun _ => rfl, fun _ => rfl, by simp⟩

theorem ticket (move : PhaseMove s i action p q) (holds : q.ticket? ≠ none) :
    p.ticket? ≠ none ∨ ∃ sel, s.pc = .send sel ∧ sel.pending.tx = i := by
  cases move with
  | stamp | notify => exact .inl holds
  | receive => exact .inl (by simp [Phase.ticket?])
  | @sent selection _ _ pc mine => exact .inr ⟨selection, pc, mine⟩
  | _ => exact absurd rfl holds

end PhaseMove

namespace Step

theorem onward (step : Step cfg arith s action event s') {j : Nat} {b : Admission}
    (other : s.admissions[j]? = some b) :
    ∃ c, s'.admissions[j]? = some c ∧ Onward s j b c := by
  cases step.tableChange with
  | arrived f workUnit which admissions =>
      rw [admissions]
      exact ⟨b, Slots.getElem?_append other _, .refl s j b⟩
  | moved i a phase found move admissions =>
      rw [admissions, Slots.getElem?_set found]
      split
      · subst j
        rw [found, Option.some.injEq] at other
        subst b
        exact ⟨_, rfl, rfl, rfl, move.leads, move.ticket⟩
      · exact ⟨b, other, .refl s j b⟩
  | kept _ admissions =>
      rw [admissions]
      exact ⟨b, other, .refl s j b⟩

theorem newcomer (step : Step cfg arith s action event s') {j : Nat} {b : Admission}
    (found : s'.admissions[j]? = some b) (absent : s.admissions[j]? = none) : b.phase = .entered := by
  have outside := List.getElem?_eq_none_iff.mp absent
  cases step.tableChange with
  | arrived f workUnit which admissions =>
      rw [admissions, List.getElem?_append_right outside] at found
      have member := List.mem_singleton.mp (List.mem_of_getElem? found)
      rw [member]
  | moved i a phase _ move admissions =>
      have inside := (List.getElem?_eq_some_iff.mp found).1
      rw [admissions, List.length_set] at inside
      omega
  | kept _ admissions =>
      rw [admissions, absent] at found
      cases found

theorem inHand (step : Step cfg arith s action event s') {sel : Selection} (pc : s'.pc = .send sel) :
    s.pc = .send sel ∨ ∃ forced, event = some (.selected sel forced) := by
  cases step with
  | @round cap r _ spec =>
      right
      cases selected : r.selection with
      | none =>
          have holds := s.afterRound_holdsTicket r
          simp [pc, selected, LoopPc.holdsTicket] at holds
      | some selection =>
          obtain rfl : selection = sel := by simpa [System.afterRound, selected] using pc
          exact ⟨_, rfl⟩
  | closeReceiver =>
      unfold System.closeReceiver at pc
      split at pc <;> exact .inl pc
  | wakeNotified | wakeChanged | wakeClosed | readCap | park | proceed => cases pc
  | sent | sendFailed => cases pc
  | _ => exact .inl pc

end Step

/-- What is known about the admissions whose requests were selected. -/
structure Debits (s : System) (picked : List Nat) : Prop where
  nodup : picked.Nodup
  past : ∀ i ∈ picked, ∃ a, s.admissions[i]? = some a ∧ a.phase.pastPush = true
  queued : ∀ f, ∀ p ∈ s.inner.queue f, p.tx ∉ picked
  inHand : ∀ sel, s.pc = .send sel → sel.pending.tx ∈ picked
  tickets : ∀ (i : Nat) (a : Admission), s.admissions[i]? = some a → a.phase.ticket? ≠ none →
    i ∈ picked

/-- The request a round selects: the head of its queue, and the only one of its
    admission in any queue. -/
theorem Step.selects {selection : Selection} {forced : Bool} (links : Links s) (inv : SystemInv cfg s)
    (step : Step cfg arith s action event s')
    (emitted : event = some (.selected selection forced)) :
    (∃ a, s.admissions[selection.pending.tx]? = some a ∧
      Waits a selection.flowId selection.pending) ∧
      selection.pending ∈ s.inner.queue selection.flowId ∧
      ∀ f, ∀ p ∈ s'.inner.queue f, p ∈ s.inner.queue f ∧ p.tx ≠ selection.pending.tx := by
  obtain ⟨cap, r, rfl, pc, spec, selected, -, rfl⟩ := step.of_selected emitted
  obtain ⟨-, rest, served⟩ := spec.served selected
  have head : selection.pending ∈ s.inner.queue selection.flowId := by simp [served.head]
  obtain ⟨a, found, waits⟩ := links.queued _ _ head
  refine ⟨⟨a, found, waits⟩, head, ?_⟩
  intro f p member
  change p ∈ r.state.queue f at member
  have older : p ∈ s.inner.queue f ∧ p.pendingId ≠ selection.pending.pendingId := by
    rw [served.queue] at member
    split at member
    · subst f
      have sorted := inv.repInv.sorted selection.flowId
      simp only [served.head, pendingIds, List.map_cons, List.pairwise_cons] at sorted
      have inside : p ∈ s.inner.queue selection.flowId := by simp [served.head, member]
      exact ⟨inside, Nat.ne_of_gt (sorted.1 _ (List.mem_map_of_mem member))⟩
    · exact ⟨member, inv.repInv.apart f selection.flowId ‹_› p member _ head⟩
  refine ⟨older.1, ?_⟩
  intro same
  -- two queued requests of one admission would carry the one id it awaits
  obtain ⟨b, foundB, waitsB⟩ := links.queued f p older.1
  rw [same, found, Option.some.injEq] at foundB
  subst b
  have mine := Phase.guardId_of_awaits waits.awaits
  have its := Phase.guardId_of_awaits waitsB.awaits
  rw [mine] at its
  exact older.2 (Option.some.inj its).symm

namespace Debits

variable {picked : List Nat}

theorem start (cfg : Config) : Debits (System.start cfg) [] where
  nodup := List.nodup_nil
  past := by simp
  queued := by simp
  inHand := by
    intro sel pc
    simp [System.start] at pc
  tickets := by
    intro i a found
    simp [System.start] at found

theorem past_next (debits : Debits s picked) (step : Step cfg arith s action event s') {i : Nat}
    (member : i ∈ picked) : ∃ a, s'.admissions[i]? = some a ∧ a.phase.pastPush = true := by
  obtain ⟨a, found, past⟩ := debits.past i member
  obtain ⟨b, found', goes⟩ := step.onward found
  exact ⟨b, found', goes.leads.past past⟩

theorem tickets_next (debits : Debits s picked) (step : Step cfg arith s action event s') {i : Nat}
    {b : Admission} (found : s'.admissions[i]? = some b) (ticket : b.phase.ticket? ≠ none) :
    i ∈ picked := by
  cases before : s.admissions[i]? with
  | none =>
      have entered := step.newcomer found before
      simp [entered, Phase.ticket?] at ticket
  | some a =>
      obtain ⟨c, found', goes⟩ := step.onward before
      rw [found, Option.some.injEq] at found'
      subst c
      cases goes.ticket ticket with
      | inl had => exact debits.tickets i a before had
      | inr hand =>
          obtain ⟨sel, pc, rfl⟩ := hand
          exact debits.inHand sel pc

theorem next_selected (debits : Debits s picked) (links : Links s) (inv : SystemInv cfg s)
    {selection : Selection} {forced : Bool}
    (step : Step cfg arith s action (some (.selected selection forced)) s') :
    Debits s' (picked ++ [selection.pending.tx]) := by
  obtain ⟨⟨a, found, waits⟩, head, rest⟩ := step.selects links inv rfl
  have fresh := debits.queued selection.flowId selection.pending head
  obtain ⟨b, found', goes⟩ := step.onward found
  constructor
  · apply List.nodup_append.mpr ⟨debits.nodup, List.nodup_singleton _, _⟩
    rintro i member j last rfl
    rw [List.mem_singleton.mp last] at member
    exact fresh member
  · intro i member
    cases List.mem_append.mp member with
    | inl old => exact debits.past_next step old
    | inr new =>
        obtain rfl := List.mem_singleton.mp new
        exact ⟨b, found', goes.leads.past (Phase.pastPush_of_awaits waits.awaits)⟩
  · intro f p member
    obtain ⟨old, other⟩ := rest f p member
    rw [List.mem_append, List.mem_singleton]
    exact not_or.mpr ⟨debits.queued f p old, other⟩
  · intro sel pc
    cases step.inHand pc with
    | inl held => exact List.mem_append_left _ (debits.inHand sel held)
    | inr made =>
        obtain ⟨forced', same⟩ := made
        cases same
        simp
  · intro i b found ticket
    exact List.mem_append_left _ (debits.tickets_next step found ticket)

theorem next_unselected (debits : Debits s picked) (step : Step cfg arith s action event s')
    (other : ∀ selection forced, event ≠ some (.selected selection forced)) : Debits s' picked := by
  refine ⟨debits.nodup, fun i => debits.past_next step, ?_, ?_, fun i b => debits.tickets_next step⟩
  · intro f p member
    cases step.mem_queue member with
    | inl old => exact debits.queued f p old
    | inr pushed =>
        obtain ⟨i, emitted⟩ := pushed
        obtain ⟨a, -, found, phase, -, rfl, -⟩ := step.of_enqueued emitted
        intro member
        obtain ⟨b, foundB, past⟩ := debits.past _ member
        rw [found, Option.some.injEq] at foundB
        subst b
        simp [phase, Phase.pastPush] at past
  · intro sel pc
    cases step.inHand pc with
    | inl held => exact debits.inHand sel held
    | inr made =>
        obtain ⟨forced, same⟩ := made
        exact absurd same (other sel forced)

theorem next (debits : Debits s picked) (links : Links s) (inv : SystemInv cfg s)
    (step : Step cfg arith s action event s') : Debits s' (picked ++ chosen event.toList) := by
  by_cases selects : ∃ selection forced, event = some (.selected selection forced)
  · obtain ⟨selection, forced, rfl⟩ := selects
    exact debits.next_selected links inv step
  · have other : ∀ selection forced, event ≠ some (.selected selection forced) :=
      fun selection forced same => selects ⟨selection, forced, same⟩
    rw [chosen_other other, List.append_nil]
    exact debits.next_unselected step other

theorem of_run {ts} (run : (scheduler cfg arith).Exec (System.start cfg) ts s) :
    Debits s (chosen (Machine.events ts)) := by
  induction run with
  | nil => exact start cfg
  | snoc before step ih =>
      have reach : (scheduler cfg arith).Reachable _ := ⟨_, before⟩
      have inv := SystemInv.reachable reach
      rw [Machine.events_append, Machine.events_singleton, chosen_append]
      exact ih.next (Links.reachable reach) inv (inv.step_of_next step)

end Debits

end TinyLlb
