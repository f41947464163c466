import TinyLlb.Runtime.Permits

/-! # Requests and the admissions that made them

A request in a queue, or in the hands of the loop, names the admission that
waits for its ticket. `Links` says that this admission is still there to receive
it, that it is of the flow the request is queued under, and that no two guards
carry the same id. It follows that the loop's `send` always finds a channel
without a ticket, or one whose receiver is gone.
-/

namespace TinyLlb

/-- The id that the guard of an admission would remove. -/
def Phase.guardId : Phase → Option Nat
  | .inQueue pendingId _ _ => some pendingId
  | .unwinding pendingId => pendingId
  | .waking pendingId => pendingId
  | _ => none

/-- No ticket has been sent for request `id` of this admission. -/
def Phase.Awaits (id : Nat) : Phase → Prop
  | .inQueue pendingId _ none => pendingId = id
  | .unwinding pendingId => pendingId = some id
  | _ => False

def Phase.ticket? : Phase → Option Ticket
  | .inQueue _ _ slot => slot
  | .admitted ticket => some ticket
  | _ => none

theorem Phase.guardId_of_awaits {phase : Phase} {id : Nat} (awaits : phase.Awaits id) :
    phase.guardId = some id := by
  cases phase with
  | inQueue pendingId stage slot =>
      cases slot with
      | none => exact congrArg some awaits
      | some ticket => exact awaits.elim
  | unwinding pendingId => exact awaits
  | entered | atGate | admitted | waking | finished => exact awaits.elim

/-- `a` made the request `p` of flow `f` and waits for its ticket. -/
structure Waits (a : Admission) (f : FlowId) (p : Pending) : Prop where
  flow : a.flowId = f
  enter : a.enter = p.enqueuedAt
  workUnit : a.workUnit = p.workUnit
  awaits : a.phase.Awaits p.pendingId

structure Links (s : System) : Prop where
  queued : ∀ f, ∀ p ∈ s.inner.queue f, ∃ a, s.admissions[p.tx]? = some a ∧ Waits a f p
  /-- The admission behind the loop's request may have gone away meanwhile. -/
  inHand : ∀ sel, s.pc = .send sel → ∃ a, s.admissions[sel.pending.tx]? = some a ∧
    a.flowId = sel.flowId ∧ (a.phase.Awaits sel.pending.pendingId ∨ a.phase = .finished)
  popped : ∀ sel, s.pc = .send sel → sel.pending.pendingId < s.inner.nextPendingId ∧
    ∀ f, ∀ p ∈ s.inner.queue f, p.pendingId ≠ sel.pending.pendingId
  below : ∀ a ∈ s.admissions, ∀ id ∈ a.phase.guardId, id < s.inner.nextPendingId
  distinct : ∀ (i j : Nat) (a b : Admission) (id : Nat), s.admissions[i]? = some a →
    s.admissions[j]? = some b → a.phase.guardId = some id → b.phase.guardId = some id → i = j
  tickets : ∀ a ∈ s.admissions, ∀ ticket ∈ a.phase.ticket?, ticket.flowId = a.flowId

namespace Links

variable {cfg : Config} {arith : I64Arith} {s s' : System} {action : Action} {event : Option Event}

theorem start (cfg : Config) : Links (System.start cfg) where
  queued := by
    intro f p member
    simp [System.start, DrrState.new, DrrState.queue] at member
  inHand := by
    intro sel pc
    simp [System.start] at pc
  popped := by
    intro sel pc
    simp [System.start] at pc
  below := by
    intro a member
    simp [System.start] at member
  distinct := by
    intro i j a b id found
    simp [System.start] at found
  tickets := by
    intro a member
    simp [System.start] at member

theorem frame (links : Links s) (queue : s'.inner.queue = s.inner.queue)
    (nextId : s'.inner.nextPendingId = s.inner.nextPendingId)
    (admissions : s'.admissions = s.admissions)
    (pc : ∀ sel, s'.pc = .send sel → s.pc = .send sel) : Links s' where
  queued := by
    rw [queue, admissions]
    exact links.queued
  inHand := by
    intro sel holds
    rw [admissions]
    exact links.inHand sel (pc sel holds)
  popped := by
    intro sel holds
    rw [queue, nextId]
    exact links.popped sel (pc sel holds)
  below := by
    rw [admissions, nextId]
    exact links.below
  distinct := by
    rw [admissions]
    exact links.distinct
  tickets := by
    rw [admissions]
    exact links.tickets

/-- What a change of phase has to respect, given what is left in the queues. -/
structure Moves (s s' : System) (i : Nat) (a : Admission) (phase : Phase) : Prop where
  admissions : s'.admissions = s.admissions.set i { a with phase }
  queue : ∀ f, ∀ p ∈ s'.inner.queue f, p ∈ s.inner.queue f
  nextId : s'.inner.nextPendingId = s.inner.nextPendingId
  pc : s'.pc = s.pc
  alive : a.phase ≠ .finished
  awaits : ∀ f, ∀ p ∈ s'.inner.queue f, p.tx = i → a.phase.Awaits p.pendingId →
    phase.Awaits p.pendingId
  inHand : ∀ id, a.phase.Awaits id → phase.Awaits id ∨ phase = .finished
  guardId : phase.guardId = a.phase.guardId ∨ phase.guardId = none
  ticket : ∀ ticket ∈ phase.ticket?, ticket ∈ a.phase.ticket?

theorem move (links : Links s) {i : Nat} {a : Admission} (phase : Phase)
    (found : s.admissions[i]? = some a) (moves : Moves s s' i a phase) : Links s' where
  queued := by
    intro f p member
    obtain ⟨b, foundB, waits⟩ := links.queued f p (moves.queue f p member)
    rw [moves.admissions, Slots.getElem?_set found]
    split
    · rename_i same
      rw [same, found, Option.some.injEq] at foundB
      subst b
      exact ⟨_, rfl, waits.flow, waits.enter, waits.workUnit,
        moves.awaits f p member same waits.awaits⟩
    · exact ⟨b, foundB, waits⟩
  inHand := by
    intro sel holds
    obtain ⟨b, foundB, flow, state⟩ := links.inHand sel (moves.pc ▸ holds)
    rw [moves.admissions, Slots.getElem?_set found]
    split
    · rename_i same
      rw [same, found, Option.some.injEq] at foundB
      subst b
      refine ⟨_, rfl, flow, ?_⟩
      cases state with
      | inl awaits => exact moves.inHand _ awaits
      | inr finished => exact absurd finished moves.alive
    · exact ⟨b, foundB, flow, state⟩
  popped := by
    intro sel holds
    obtain ⟨below, apart⟩ := links.popped sel (moves.pc ▸ holds)
    rw [moves.nextId]
    exact ⟨below, fun f p member => apart f p (moves.queue f p member)⟩
  below := by
    intro b member id carries
    rw [moves.admissions] at member
    rw [moves.nextId]
    rcases List.mem_or_eq_of_mem_set member with old | rfl
    · exact links.below b old id carries
    · refine links.below a (List.mem_of_getElem? found) id ?_
      cases moves.guardId with
      | inl same => exact same ▸ carries
      | inr none_ => simp [none_] at carries
  distinct := by
    -- The written row carries the id it carried before, or none.
    have before : ∀ (j : Nat) (b : Admission) (id : Nat), s'.admissions[j]? = some b →
        b.phase.guardId = some id →
        ∃ c, s.admissions[j]? = some c ∧ c.phase.guardId = some id := by
      intro j b id foundB carries
      rw [moves.admissions, Slots.getElem?_set found] at foundB
      split at foundB
      · rename_i same
        obtain rfl := Option.some.inj foundB
        subst j
        refine ⟨a, found, ?_⟩
        cases moves.guardId with
        | inl same => exact same ▸ carries
        | inr none_ => simp [none_] at carries
      · exact ⟨b, foundB, carries⟩
    intro j k b c id foundB foundC carriesB carriesC
    obtain ⟨b', oldB, carriesB'⟩ := before j b id foundB carriesB
    obtain ⟨c', oldC, carriesC'⟩ := before k c id foundC carriesC
    exact links.distinct j k b' c' id oldB oldC carriesB' carriesC'
  tickets := by
    intro b member ticket holds
    rw [moves.admissions] at member
    rcases List.mem_or_eq_of_mem_set member with old | rfl
    · exact links.tickets b old ticket holds
    · exact links.tickets a (List.mem_of_getElem? found) ticket (moves.ticket ticket holds)

theorem advance (links : Links s) {i : Nat} {a : Admission} (phase : Phase)
    (found : s.admissions[i]? = some a)
    (admissions : s'.admissions = s.admissions.set i { a with phase })
    (queue : s'.inner.queue = s.inner.queue)
    (nextId : s'.inner.nextPendingId = s.inner.nextPendingId) (pc : s'.pc = s.pc)
    (alive : a.phase ≠ .finished) (awaits : ∀ id, a.phase.Awaits id → phase.Awaits id)
    (guardId : phase.guardId = a.phase.guardId ∨ phase.guardId = none)
    (ticket : ∀ ticket ∈ phase.ticket?, ticket ∈ a.phase.ticket?) : Links s' :=
  links.move phase found
    { admissions, nextId, pc, alive, guardId, ticket
      queue := by
        rw [queue]
        exact fun f p member => member
      awaits := fun f p member same waits => awaits _ waits
      inHand := fun id waits => .inl (awaits id waits) }

theorem restage (links : Links s) {i : Nat} {a : Admission} {pendingId : Nat} {before stage : Stage}
    {slot : Option Ticket} (found : s.admissions[i]? = some a)
    (phase : a.phase = .inQueue pendingId before slot)
    (admissions : s'.admissions = s.admissions.set i { a with phase := .inQueue pendingId stage slot })
    (queue : s'.inner.queue = s.inner.queue)
    (nextId : s'.inner.nextPendingId = s.inner.nextPendingId) (pc : s'.pc = s.pc) : Links s' := by
  refine links.advance (.inQueue pendingId stage slot) found admissions queue nextId pc
    ?_ ?_ (.inl ?_) ?_
  · simp [phase]
  · intro id awaits
    cases slot with
    | none => simpa [phase, Phase.Awaits] using awaits
    | some ticket => simp [phase, Phase.Awaits] at awaits
  · simp [phase, Phase.guardId]
  · simp [phase, Phase.ticket?]

theorem arrive (links : Links s) (f : FlowId) (workUnit : F64) : Links (s.arrive f workUnit) where
  queued := by
    intro g p member
    obtain ⟨a, found, waits⟩ := links.queued g p member
    exact ⟨a, Slots.getElem?_append found _, waits⟩
  inHand := by
    intro sel holds
    obtain ⟨a, found, state⟩ := links.inHand sel holds
    exact ⟨a, Slots.getElem?_append found _, state⟩
  popped := links.popped
  below := by
    intro a member id carries
    rcases List.mem_append.mp member with old | new
    · exact links.below a old id carries
    · obtain rfl := List.mem_singleton.mp new
      simp [Phase.guardId] at carries
  distinct := by
    have before : ∀ (j : Nat) (b : Admission) (id : Nat),
        (s.arrive f workUnit).admissions[j]? = some b → b.phase.guardId = some id →
        s.admissions[j]? = some b := by
      intro j b id found carries
      simp only [System.arrive, List.getElem?_append] at found
      split at found
      · exact found
      · have new := List.mem_of_getElem? found
        obtain rfl := List.mem_singleton.mp new
        simp [Phase.guardId] at carries
    intro i j a b id foundA foundB carriesA carriesB
    exact links.distinct i j a b id (before i a id foundA carriesA) (before j b id foundB carriesB)
      carriesA carriesB
  tickets := by
    intro a member ticket holds
    rcases List.mem_append.mp member with old | new
    · exact links.tickets a old ticket holds
    · obtain rfl := List.mem_singleton.mp new
      simp [Phase.ticket?] at holds

theorem enqueue (links : Links s) {i : Nat} {a : Admission} (found : s.admissions[i]? = some a)
    (phase : a.phase = .atGate) : Links (s.enqueue i a) where
  queued := by
    intro f p member
    have rows := Slots.getElem?_set found
      { a with phase := .inQueue s.inner.nextPendingId .pushed none }
    simp only [System.enqueue, System.setPhase] at member ⊢
    rw [DrrState.queue_enqueue] at member
    rw [rows]
    have old : p ∈ s.inner.queue f → ∃ b, (if p.tx = i then
        some { a with phase := .inQueue s.inner.nextPendingId .pushed none }
        else s.admissions[p.tx]?) = some b ∧ Waits b f p := by
      intro queued
      obtain ⟨b, foundB, waits⟩ := links.queued f p queued
      have other : p.tx ≠ i := by
        intro same
        rw [same, found, Option.some.injEq] at foundB
        subst b
        have awaits := waits.awaits
        simp [phase, Phase.Awaits] at awaits
      simp only [other, if_false]
      exact ⟨b, foundB, waits⟩
    split at member
    · rename_i same
      subst f
      rcases List.mem_append.mp member with queued | new
      · exact old queued
      · obtain rfl := List.mem_singleton.mp new
        simp only [if_true]
        exact ⟨_, rfl, rfl, rfl, rfl, rfl⟩
    · exact old member
  inHand := by
    intro sel holds
    obtain ⟨b, foundB, flow, state⟩ := links.inHand sel holds
    have other : sel.pending.tx ≠ i := by
      intro same
      rw [same, found, Option.some.injEq] at foundB
      subst b
      simp [phase, Phase.Awaits] at state
    refine ⟨b, ?_, flow, state⟩
    simp only [System.enqueue, System.setPhase, Slots.getElem?_set found, other, if_false]
    exact foundB
  popped := by
    intro sel holds
    obtain ⟨below, apart⟩ := links.popped sel holds
    refine ⟨Nat.lt_succ_of_lt below, ?_⟩
    intro f p member
    simp only [System.enqueue] at member
    rw [DrrState.queue_enqueue] at member
    split at member
    · rcases List.mem_append.mp member with queued | new
      · exact apart _ p queued
      · obtain rfl := List.mem_singleton.mp new
        exact Nat.ne_of_gt below
    · exact apart f p member
  below := by
    intro b member id carries
    rcases List.mem_or_eq_of_mem_set member with old | rfl
    · exact Nat.lt_succ_of_lt (links.below b old id carries)
    · obtain rfl : s.inner.nextPendingId = id := by simpa [Phase.guardId] using carries
      exact Nat.lt_succ_self _
  distinct := by
    have rows := Slots.getElem?_set found
      { a with phase := .inQueue s.inner.nextPendingId .pushed none }
    -- The new id is above every id that another guard carries.
    have fresh : ∀ (j : Nat) (b : Admission), s.admissions[j]? = some b →
        b.phase.guardId ≠ some s.inner.nextPendingId := by
      intro j b foundB carries
      exact absurd (links.below b (List.mem_of_getElem? foundB) _ carries) (lt_irrefl _)
    intro j k b c id foundB foundC carriesB carriesC
    simp only [System.enqueue, System.setPhase, rows] at foundB foundC
    split at foundB <;> split at foundC
    · rename_i sameJ sameK
      exact sameJ.trans sameK.symm
    · obtain rfl := Option.some.inj foundB
      obtain rfl : s.inner.nextPendingId = id := by simpa [Phase.guardId] using carriesB
      exact absurd carriesC (fresh k c foundC)
    · obtain rfl := Option.some.inj foundC
      obtain rfl : s.inner.nextPendingId = id := by simpa [Phase.guardId] using carriesC
      exact absurd carriesB (fresh j b foundB)
    · exact links.distinct j k b c id foundB foundC carriesB carriesC
  tickets := by
    intro b member ticket holds
    rcases List.mem_or_eq_of_mem_set member with old | rfl
    · exact links.tickets b old ticket holds
    · simp [Phase.ticket?] at holds

theorem round (links : Links s) (inv : RepInv s.inner) {env : SelectEnv} {r : Round}
    (spec : RoundSpec env s.registry s.inner r) : Links (s.afterRound r) := by
  cases selected : r.selection with
  | none =>
      obtain ⟨waiting, nextId⟩ := spec.waiting_eq selected
      refine links.frame ?_ nextId rfl ?_
      · funext f
        simp only [System.afterRound, DrrState.queue, waiting]
      · intro sel pc
        have holds := s.afterRound_holdsTicket r
        simp [pc, selected, LoopPc.holdsTicket] at holds
  | some selection =>
      obtain ⟨-, rest, served⟩ := spec.served selected
      have hand : ∀ sel, (s.afterRound r).pc = .send sel → sel = selection := by
        intro sel pc
        simpa [System.afterRound, selected] using pc.symm
      have head : selection.pending ∈ s.inner.queue selection.flowId := by
        simp [served.head]
      have smaller : ∀ f, ∀ p ∈ r.state.queue f, p ∈ s.inner.queue f ∧
          p.pendingId ≠ selection.pending.pendingId := by
        intro f p member
        rw [served.queue] at member
        split at member
        · subst f
          have sorted := inv.sorted selection.flowId
          simp only [served.head, pendingIds, List.map_cons, List.pairwise_cons] at sorted
          refine ⟨?_, Nat.ne_of_gt (sorted.1 _ (List.mem_map_of_mem member))⟩
          simp [served.head, member]
        · exact ⟨member, inv.apart f selection.flowId ‹_› p member _ head⟩
      obtain ⟨a, found, waits⟩ := links.queued _ _ head
      refine ⟨?_, ?_, ?_, ?_, links.distinct, links.tickets⟩
      · intro f p member
        exact links.queued f p (smaller f p member).1
      · intro sel pc
        obtain rfl := hand sel pc
        exact ⟨a, found, waits.flow, .inl waits.awaits⟩
      · intro sel pc
        obtain rfl := hand sel pc
        refine ⟨?_, fun f p member => (smaller f p member).2⟩
        exact lt_of_lt_of_eq (inv.below _ _ head) served.nextId.symm
      · intro b member id carries
        exact lt_of_lt_of_eq (links.below b member id carries) served.nextId.symm

theorem sent (links : Links s) {sel : Selection} {a : Admission} {pendingId : Nat} {stage : Stage}
    (pc : s.pc = .send sel) (found : s.admissions[sel.pending.tx]? = some a)
    (phase : a.phase = .inQueue pendingId stage none) :
    Links (s.deliverTicket sel a pendingId stage) := by
  have rows := Slots.getElem?_set found
    { a with phase := .inQueue pendingId stage (some ⟨sel.flowId, sel.workUnit⟩) }
  obtain ⟨b, foundB, flow, state⟩ := links.inHand sel pc
  rw [found, Option.some.injEq] at foundB
  subst b
  have same : pendingId = sel.pending.pendingId := by simpa [phase, Phase.Awaits] using state
  have other : ∀ f, ∀ p ∈ s.inner.queue f, p.tx ≠ sel.pending.tx := by
    intro f p member here
    obtain ⟨b, foundB, waits⟩ := links.queued f p member
    rw [here, found, Option.some.injEq] at foundB
    subst b
    have awaits : pendingId = p.pendingId := by simpa [phase, Phase.Awaits] using waits.awaits
    exact (links.popped sel pc).2 f p member (awaits.symm.trans same)
  refine ⟨?_, ?_, ?_, ?_, ?_, ?_⟩
  · intro f p member
    obtain ⟨b, foundB, waits⟩ := links.queued f p member
    refine ⟨b, ?_, waits⟩
    simp only [System.deliverTicket, System.setPhase, rows, other f p member, if_false]
    exact foundB
  · intro sel' pc'
    simp [System.deliverTicket] at pc'
  · intro sel' pc'
    simp [System.deliverTicket] at pc'
  · intro b member id carries
    rcases List.mem_or_eq_of_mem_set member with old | rfl
    · exact links.below b old id carries
    · refine links.below a (List.mem_of_getElem? found) id ?_
      simpa [phase, Phase.guardId] using carries
  · intro j k b c id foundB foundC carriesB carriesC
    have before : ∀ (j : Nat) (b : Admission), (s.deliverTicket sel a pendingId stage).admissions[j]? =
        some b → ∃ c, s.admissions[j]? = some c ∧ c.phase.guardId = b.phase.guardId := by
      intro j b foundB
      simp only [System.deliverTicket, System.setPhase, rows] at foundB
      split at foundB
      · rename_i here
        obtain rfl := Option.some.inj foundB
        subst j
        exact ⟨a, found, by simp [phase, Phase.guardId]⟩
      · exact ⟨b, foundB, rfl⟩
    obtain ⟨b', oldB, sameB⟩ := before j b foundB
    obtain ⟨c', oldC, sameC⟩ := before k c foundC
    exact links.distinct j k b' c' id oldB oldC (sameB.trans carriesB) (sameC.trans carriesC)
  · intro b member ticket holds
    rcases List.mem_or_eq_of_mem_set member with old | rfl
    · exact links.tickets b old ticket holds
    · obtain rfl : (⟨sel.flowId, sel.workUnit⟩ : Ticket) = ticket := by
        simpa [Phase.ticket?] using holds
      exact flow.symm

theorem dropGuard (links : Links s) {i : Nat} {a : Admission} {pendingId : Option Nat}
    (found : s.admissions[i]? = some a) (phase : a.phase = .unwinding pendingId) :
    Links (s.dropGuard i a pendingId) := by
  have queue : ∀ f, ∀ p ∈ (s.dropGuard i a pendingId).inner.queue f,
      p ∈ s.inner.queue f ∧ (f = a.flowId → pendingId ≠ some p.pendingId) := by
    intro f p member
    simp only [System.dropGuard] at member
    rw [DrrState.queue_dropGuard] at member
    split at member
    · subst f
      obtain ⟨queued, other⟩ := DrrState.mem_kept.mp member
      exact ⟨queued, fun _ => other⟩
    · exact ⟨member, fun same => absurd same ‹_›⟩
  refine links.move .finished found
    { admissions := rfl
      queue := fun f p member => (queue f p member).1
      nextId := (DrrState.dropGuard_counters _ _ _).1
      pc := rfl
      alive := by simp [phase]
      awaits := ?_
      inHand := fun _ _ => .inr rfl
      guardId := .inr rfl
      ticket := by simp [Phase.ticket?] }
  -- A request that this admission waits for is of its own flow, and gone.
  intro f p member here awaits
  obtain ⟨queued, other⟩ := queue f p member
  obtain ⟨b, foundB, waits⟩ := links.queued f p queued
  rw [here, found, Option.some.injEq] at foundB
  subst b
  have mine : pendingId = some p.pendingId := by simpa [phase, Phase.Awaits] using awaits
  exact absurd mine (other waits.flow.symm)

theorem next (links : Links s) (inv : SystemInv cfg s) (step : Step cfg arith s action event s') :
    Links s' := by
  cases step with
  | arrive => exact links.arrive _ _
  | enqueue found phase => exact links.enqueue found phase
  | dropGuard found phase => exact links.dropGuard found phase
  | round pc spec => exact links.round inv.repInv spec
  | sent pc found phase => exact links.sent pc found phase
  | createGuard found phase =>
      refine links.advance .atGate found rfl rfl rfl rfl ?_ ?_ (.inr rfl) ?_ <;>
        simp [phase, Phase.Awaits, Phase.ticket?]
  | stamp found phase | notify found phase => exact links.restage found phase rfl rfl rfl rfl
  | @receive i a pendingId since ticket found phase =>
      refine links.advance (.admitted ticket) found rfl rfl rfl rfl ?_ ?_ (.inr rfl) ?_ <;>
        simp [phase, Phase.Awaits, Phase.ticket?]
  | leaveGate found phase =>
      refine links.advance (.unwinding none) found rfl rfl rfl rfl ?_ ?_ (.inr rfl) ?_ <;>
        simp [phase, Phase.Awaits, Phase.ticket?]
  | @closeReceiver _ i a pendingId since slot _ found phase =>
      cases slot with
      | none =>
          refine links.advance (.unwinding (some pendingId)) found rfl rfl rfl rfl
            ?_ ?_ (.inl ?_) ?_ <;>
            simp [phase, Phase.Awaits, Phase.guardId, Phase.ticket?]
      | some ticket =>
          refine links.advance (.waking (some pendingId)) found rfl rfl rfl rfl
            ?_ ?_ (.inl ?_) ?_ <;>
            simp [phase, Phase.Awaits, Phase.guardId, Phase.ticket?]
  | dropTicket found phase =>
      refine links.advance (.waking none) found rfl rfl rfl rfl ?_ ?_ (.inr rfl) ?_ <;>
        simp [phase, Phase.Awaits, Phase.ticket?]
  | @wake i a pendingId found phase =>
      cases pendingId with
      | none =>
          refine links.advance (.finished) found rfl rfl rfl rfl ?_ ?_ (.inr rfl) ?_ <;>
            simp [phase, Phase.Awaits, Phase.ticket?]
      | some id =>
          refine links.advance (.unwinding (some id)) found rfl rfl rfl rfl
            ?_ ?_ (.inl ?_) ?_ <;>
            simp [phase, Phase.Awaits, Phase.guardId, Phase.ticket?]
  | wakeNotified | wakeChanged | wakeClosed | readCap | park | proceed =>
      refine links.frame rfl rfl rfl ?_
      intro sel pc
      simp at pc
  | sendFailed =>
      refine links.frame rfl rfl rfl ?_
      intro sel pc
      simp [System.failedSend] at pc
  | _ => exact links.frame rfl rfl rfl fun _ pc => pc

theorem reachable (reach : (scheduler cfg arith).Reachable s) : Links s := by
  refine reach.invariant (Links.start cfg) ?_
  intro v a w e reach links next
  have inv := SystemInv.reachable reach
  exact links.next inv (inv.step_of_next next)

/-- The loop is never stuck with a ticket in its hands. -/
theorem send_enabled (links : Links s) {sel : Selection} (pc : s.pc = .send sel) :
    ∃ t, nextSystem cfg arith s .send = some (t, none) := by
  obtain ⟨a, found, -, state⟩ := links.inHand sel pc
  simp only [nextSystem, pc, found, Option.bind_eq_bind, Option.bind_some]
  cases phase : a.phase with
  | inQueue pendingId stage slot =>
      cases slot with
      | none => exact ⟨_, rfl⟩
      | some ticket => simp [phase, Phase.Awaits] at state
  | unwinding pendingId => exact ⟨_, rfl⟩
  | finished => exact ⟨_, rfl⟩
  | entered | atGate | admitted | waking => simp [phase, Phase.Awaits] at state

end Links

end TinyLlb
