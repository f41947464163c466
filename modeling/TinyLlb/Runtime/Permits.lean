import TinyLlb.Library.Slots
import TinyLlb.Runtime.Steps

/-! # Permits and the shape of the state in every run

Each step moves a permit between the pool, the loop, a channel and a caller, or
leaves all of them alone. That, together with the effect of each operation on
the queues, makes `SystemInv` an invariant, and with it no run ever panics.
-/

namespace TinyLlb

variable {cfg : Config} {arith : I64Arith} {s s' : System} {action : Action} {event : Option Event}

namespace System

/-- Admissions whose ticket is in the channel or with the caller. -/
def ticketsSent (s : System) : Nat := s.admissions.countP fun a => a.phase.holdsTicket

theorem ticketsOut_eq (s : System) :
    s.ticketsOut = (if s.pc.holdsTicket then 1 else 0) + s.ticketsSent := rfl

theorem ticketsSent_set (s' : System) {i : Nat} {a : Admission}
    (found : s.admissions[i]? = some a) (phase : Phase)
    (same : s'.admissions = s.admissions.set i { a with phase }) :
    s'.ticketsSent + (if a.phase.holdsTicket then 1 else 0) =
      s.ticketsSent + (if phase.holdsTicket then 1 else 0) := by
  unfold ticketsSent
  rw [same]
  exact Slots.countP_set found _ _

theorem ticketsSent_advance (s' : System) {i : Nat} {a : Admission}
    (found : s.admissions[i]? = some a) (phase : Phase)
    (same : s'.admissions = s.admissions.set i { a with phase })
    (kept : a.phase.holdsTicket = phase.holdsTicket) : s'.ticketsSent = s.ticketsSent := by
  have sent := ticketsSent_set s' found phase same
  rw [kept] at sent
  exact Nat.add_right_cancel sent

theorem afterRound_holdsTicket (s : System) (r : Round) :
    (s.afterRound r).pc.holdsTicket = r.selection.isSome := by
  unfold afterRound
  cases selected : r.selection with
  | some selection => rfl
  | none => cases credited : r.creditAccumulated <;> rfl

theorem afterRound_cap? (s : System) (r : Round) : (s.afterRound r).pc.cap? = none := by
  unfold afterRound
  cases selected : r.selection with
  | some selection => rfl
  | none => cases credited : r.creditAccumulated <;> rfl

end System

namespace Step

theorem repInv (step : Step cfg arith s action event s') (inv : RepInv s.inner) :
    RepInv s'.inner := by
  cases step with
  | enqueue => exact inv.enqueue _ _ _ _
  | dropGuard => exact inv.dropGuard _ _
  | closeReceiver _ _ phase =>
      unfold System.closeReceiver
      split
      · exact inv.release
      · exact inv
  | dropTicket => exact inv.release
  | round pc spec => exact spec.repInv inv
  | sendFailed => exact inv.release
  | _ => exact inv

theorem budget (step : Step cfg arith s action event s') :
    s'.inner.maxPermits = s.inner.maxPermits := by
  cases step with
  | dropGuard => exact (DrrState.dropGuard_counters _ _ _).2.2
  | closeReceiver =>
      unfold System.closeReceiver
      split <;> rfl
  | round pc spec => exact spec.budget
  | _ => rfl

/-- Permits change hands but none appears or disappears. -/
theorem conserved (step : Step cfg arith s action event s') :
    s'.inner.availablePermits + s'.ticketsOut = s.inner.availablePermits + s.ticketsOut := by
  simp only [System.ticketsOut_eq]
  cases step with
  | @arrive f workUnit _ =>
      have sent : (s.arrive f workUnit).ticketsSent = s.ticketsSent := by
        simp [System.ticketsSent, System.arrive, System.modifyFlow, Phase.holdsTicket]
      rw [sent]
      rfl
  | createGuard found phase =>
      rw [System.ticketsSent_advance (s.createGuard _ _) found .atGate rfl (by rw [phase]; rfl)]
      rfl
  | enqueue found phase =>
      rw [System.ticketsSent_advance (s.enqueue _ _) found _ rfl (by rw [phase]; rfl)]
      rfl
  | @stamp i a pendingId slot found phase =>
      have kept : a.phase.holdsTicket = (Phase.inQueue pendingId .stamped slot).holdsTicket := by
        rw [phase]
        cases slot <;> rfl
      rw [System.ticketsSent_advance (s.stamp i a pendingId slot) found _ rfl kept]
      rfl
  | @notify i a pendingId slot found phase =>
      have kept : a.phase.holdsTicket =
          (Phase.inQueue pendingId (.polling s.now) slot).holdsTicket := by
        rw [phase]
        cases slot <;> rfl
      rw [System.ticketsSent_advance (s.notify i a pendingId slot) found _ rfl kept]
      rfl
  | @receive i a _ _ ticket found phase =>
      rw [System.ticketsSent_advance (s.receive i a ticket) found _ rfl (by rw [phase]; rfl)]
      rfl
  | leaveGate found phase =>
      rw [System.ticketsSent_advance (s.setPhase _ _ (.unwinding none)) found _ rfl
        (by rw [phase]; rfl)]
      rfl
  | @closeReceiver _ i a pendingId since slot _ found phase =>
      -- A ticket in the channel dies with it and gives its permit back.
      cases slot with
      | none =>
          rw [System.ticketsSent_advance (s.closeReceiver i a pendingId none) found _ rfl
            (by rw [phase]; rfl)]
          rfl
      | some ticket =>
          have sent :=
            System.ticketsSent_set (s.closeReceiver i a pendingId (some ticket)) found _ rfl
          simp only [phase, Phase.holdsTicket, Bool.false_eq_true, if_true, if_false] at sent
          have freed : (s.closeReceiver i a pendingId (some ticket)).inner.availablePermits =
            s.inner.availablePermits + 1 := rfl
          have loop : (s.closeReceiver i a pendingId (some ticket)).pc = s.pc := rfl
          rw [freed, loop]
          omega
  | @dropGuard i a pendingId found phase =>
      have freed := (DrrState.dropGuard_counters s.inner a.flowId pendingId).2.1
      rw [System.ticketsSent_advance (s.dropGuard i a pendingId) found _ rfl (by rw [phase]; rfl)]
      exact congrArg (· + _) freed
  | @dropTicket i a ticket found phase =>
      have sent := System.ticketsSent_set (s.dropTicket i a ticket) found _ rfl
      simp only [phase, Phase.holdsTicket, Bool.false_eq_true, if_true, if_false] at sent
      have freed : (s.dropTicket i a ticket).inner.availablePermits =
        s.inner.availablePermits + 1 := rfl
      have loop : (s.dropTicket i a ticket).pc = s.pc := rfl
      rw [freed, loop]
      omega
  | @wake i a pendingId found phase =>
      cases pendingId with
      | none =>
          rw [System.ticketsSent_advance (s.wake i a none) found .finished rfl (by rw [phase]; rfl)]
          rfl
      | some id =>
          rw [System.ticketsSent_advance (s.wake i a (some id)) found (.unwinding (some id)) rfl
            (by rw [phase]; rfl)]
          rfl
  | wakeNotified pc | wakeChanged pc | wakeClosed pc | readCap pc | park pc | proceed pc =>
      simp only [pc, LoopPc.holdsTicket]
      rfl
  | @round cap r pc spec =>
      -- The request moves from the pool into the hands of the loop.
      have permits := spec.permits
      have sent : (s.afterRound r).ticketsSent = s.ticketsSent := rfl
      have state : (s.afterRound r).inner = r.state := rfl
      rw [sent, state, System.afterRound_holdsTicket, pc, ← permits]
      simp only [LoopPc.holdsTicket, Bool.false_eq_true, if_false]
      omega
  | @sent selection a pendingId stage pc found phase =>
      have sent :=
        System.ticketsSent_set (s.deliverTicket selection a pendingId stage) found _ rfl
      simp only [phase, Phase.holdsTicket, Bool.false_eq_true, if_true, if_false] at sent
      have pool : (s.deliverTicket selection a pendingId stage).inner = s.inner := rfl
      have loop : (s.deliverTicket selection a pendingId stage).pc = .readCap := rfl
      rw [pool, loop, pc]
      simp only [LoopPc.holdsTicket, Bool.false_eq_true, if_true, if_false]
      omega
  | sendFailed pc =>
      simp only [pc, LoopPc.holdsTicket, System.failedSend, DrrState.release, System.ticketsSent,
        Bool.false_eq_true, if_true, if_false]
      omega
  | _ => rfl

theorem caps (step : Step cfg arith s action event s')
    (budget : s.inner.maxPermits = cfg.scheduler.maxActiveFlows.toNat)
    (caps : ∀ cap ∈ s.pc.cap?, cap ≤ s.inner.maxPermits) :
    ∀ cap ∈ s'.pc.cap?, cap ≤ s'.inner.maxPermits := by
  rw [step.budget]
  cases step with
  | closeReceiver =>
      unfold System.closeReceiver
      split <;> exact caps
  | wakeNotified | wakeChanged | wakeClosed | park | sent | sendFailed =>
      intro cap member
      simp [LoopPc.cap?, System.deliverTicket, System.failedSend] at member
  | readCap =>
      intro cap member
      obtain rfl : s.effectiveCap cfg = cap := by simpa [LoopPc.cap?] using member
      rw [budget]
      exact KvPressure.effectiveMax_le _ _ _
  | proceed pc =>
      intro cap member
      apply caps cap
      simpa [LoopPc.cap?, pc] using member
  | @round cap r =>
      intro cap member
      simp [System.afterRound_cap?] at member
  | _ => exact caps

theorem running (step : Step cfg arith s action event s')
    (running : ∀ panic, s.pc ≠ .panicked panic) : ∀ panic, s'.pc ≠ .panicked panic := by
  cases step with
  | closeReceiver =>
      unfold System.closeReceiver
      split <;> exact running
  | wakeNotified | wakeChanged | wakeClosed | readCap | park | proceed | sent | sendFailed =>
      intro panic
      exact LoopPc.noConfusion
  | @round cap r =>
      intro panic
      simp only [System.afterRound]
      cases r.selection with
      | some selection => exact LoopPc.noConfusion
      | none => cases r.creditAccumulated <;> exact LoopPc.noConfusion
  | _ => exact running

end Step

namespace SystemInv

theorem start (cfg : Config) : SystemInv cfg (System.start cfg) where
  repInv := RepInv.new _
  budget := rfl
  conserved := rfl
  caps := by
    intro cap member
    simp [System.start, LoopPc.cap?] at member
  running := by
    intro panic
    exact LoopPc.noConfusion

theorem next (inv : SystemInv cfg s) (step : Step cfg arith s action event s') :
    SystemInv cfg s' where
  repInv := step.repInv inv.repInv
  budget := step.budget.trans inv.budget
  conserved := by rw [step.conserved, inv.conserved, step.budget]
  caps := step.caps inv.budget inv.caps
  running := step.running inv.running

theorem reachable (reach : (scheduler cfg arith).Reachable s) : SystemInv cfg s := by
  refine reach.invariant (SystemInv.start cfg) ?_
  intro v a w e _ inv next
  exact inv.next (inv.step_of_next next)

end SystemInv

/-- Every transition of a run is a `Step` between states that keep the
    invariant. -/
theorem step_of_run {ts} (run : (scheduler cfg arith).Exec (scheduler cfg arith).start ts s) {tr}
    (member : tr ∈ ts) :
    SystemInv cfg tr.pre ∧ Step cfg arith tr.pre tr.action tr.event tr.post := by
  obtain ⟨before, after, -, first, -⟩ := run.split_of_mem member
  have inv := SystemInv.reachable ⟨before, first⟩
  exact ⟨inv, inv.step_of_next (run.step_of_mem member)⟩

/-- In every reachable state each permit is in the pool or owned by one ticket:
    in the hands of the loop, in a channel, or with a caller. -/
theorem permits_conserved (cfg : Config) (arith : I64Arith) {s : System}
    (reach : (scheduler cfg arith).Reachable s) :
    s.inner.availablePermits + s.ticketsOut = s.inner.maxPermits ∧
      s.inner.maxPermits = cfg.scheduler.maxActiveFlows.toNat ∧
      s.inner.availablePermits ≤ s.inner.maxPermits ∧
      checkedSub s.inner.maxPermits s.inner.availablePermits = .ok s.ticketsOut ∧
      (∀ cap, s.pc = .select cap →
        trySelect (s.selectEnv cfg arith cap) s.registry s.inner ≠ .error .subtractOverflow) ∧
      s.pc ≠ .panicked .subtractOverflow := by
  have inv := SystemInv.reachable reach
  refine ⟨inv.conserved, inv.budget, inv.permits, ?_, ?_, inv.running _⟩
  · rw [inv.checkedSub_permits, inv.outstanding_eq]
  · intro cap pc
    obtain ⟨r, returned, -⟩ := inv.trySelect_ok arith pc
    simp [returned]

/-- A budget of one permit. -/
def Config.onePermit : Config :=
  { Config.default with scheduler := { SchedulerConfig.default with maxActiveFlows := 1 } }

/-- One admission that goes as far as its ticket being sent. -/
def sendOne (f : FlowId) (workUnit : F64) (i : Nat) : List Action :=
  [.arrive f workUnit, .createGuard i, .enqueue i, .stamp i, .notify i,
    .wakeNotified, .readCap, .readState, .trySelect, .send]

/-- A caller goes away while its ticket is in the channel. -/
theorem permits_conserved_ticket_in_channel :
    let m := scheduler .default .wrapping
    let s := m.after (sendOne ⟨"a"⟩ (.fin 1) 0 ++ [.cancel 0])
    s.inner.availablePermits = 4 ∧
      s.inner.availablePermits + s.ticketsOut = s.inner.maxPermits ∧
      checkedSub s.inner.maxPermits s.inner.availablePermits = .ok s.ticketsOut := by
  have conserved := permits_conserved .default .wrapping
    (Machine.reachable_after _ (sendOne ⟨"a"⟩ (.fin 1) 0 ++ [.cancel 0]))
  exact ⟨by decide +kernel, conserved.1, conserved.2.2.2.1⟩

/-- `waiting`, the cursor and the ids agree in every reachable state, so a
    selection always returns and has nothing to clean up. -/
theorem representation_invariant (cfg : Config) (arith : I64Arith) {s : System}
    (reach : (scheduler cfg arith).Reachable s) :
    RepInv s.inner ∧
      (∀ env registry, env.cap ≤ s.inner.maxPermits →
        ∃ r, trySelect env registry s.inner = .ok r) ∧
      (∀ panic, s.pc ≠ .panicked panic) ∧
      (∀ f ∈ s.inner.rrCursor, ∃ p rest, s.inner.waiting.lookup f = some (p :: rest)) ∧
      ∀ deficit rrCursor,
        TrySelect.dropEmpty { s.inner with deficit, rrCursor } =
          { s.inner with deficit, rrCursor } := by
  have inv := SystemInv.reachable reach
  refine ⟨inv.repInv, ?_, inv.running, ?_, ?_⟩
  · intro env registry cap
    obtain ⟨r, returned, -⟩ :=
      trySelect_spec env registry inv.repInv cap inv.permits
    exact ⟨r, returned⟩
  · intro f member
    obtain ⟨p, rest, found, -⟩ := inv.repInv.head_of_mem member
    exact ⟨p, rest, found⟩
  · intro deficit rrCursor
    exact dropEmpty_eq_self inv.repInv.nonempty

/-- Two flows wait, one of them with two requests. -/
theorem representation_invariant_two_flows :
    let m := scheduler .default .wrapping
    let s := m.after
      [.arrive ⟨"a"⟩ (.fin 1), .createGuard 0, .enqueue 0, .arrive ⟨"b"⟩ (.fin 1), .createGuard 1,
        .enqueue 1, .arrive ⟨"a"⟩ (.fin 1), .createGuard 2, .enqueue 2]
    s.inner.rrCursor = [⟨"a"⟩, ⟨"b"⟩] ∧ pendingIds (s.inner.queue ⟨"a"⟩) = [0, 2] ∧
      RepInv s.inner := by
  refine ⟨by decide +kernel, by decide +kernel, ?_⟩
  exact (representation_invariant .default .wrapping (Machine.reachable_after _ _)).1

end TinyLlb
