import TinyLlb.Runtime.Links

/-! # The active counters

`Flow::active` and the `llm_active_flows` gauge go up in the admit future, once
the ticket has been received, and down in the ticket's drop handler. A ticket
that dies in its channel runs the handler without ever having been received, and
this is the only step that sets the counters off: they agree with the live
tickets throughout a run exactly when no receiver is dropped over a ticket.
-/

namespace TinyLlb

variable {cfg : Config} {arith : I64Arith} {s s' : System} {action : Action} {event : Option Event}

/-- The caller of `a` holds a ticket of flow `f`. -/
def Admission.holdsTicketOf (f : FlowId) (a : Admission) : Bool :=
  match a.phase with
  | .admitted ticket => decide (ticket.flowId = f)
  | _ => false

def Admission.isAdmitted (a : Admission) : Bool :=
  match a.phase with
  | .admitted _ => true
  | _ => false

namespace System

/-- Tickets of `f` that were received and not dropped yet. -/
def liveTickets (s : System) (f : FlowId) : Nat := s.admissions.countP (Admission.holdsTicketOf f)

/-- Such tickets of all flows. -/
def allLiveTickets (s : System) : Nat := s.admissions.countP Admission.isAdmitted

structure CountersAgree (s : System) : Prop where
  active : ∀ f, (s.flow f).active.toNat = s.liveTickets f
  gauge : s.activeFlows = s.allLiveTickets

theorem liveTickets_lt (inv : SystemInv cfg s) (f : FlowId) : s.liveTickets f < 2 ^ 32 := by
  have owned : s.liveTickets f ≤ s.ticketsSent := by
    apply List.countP_mono_left
    intro a _ holds
    unfold Admission.holdsTicketOf at holds
    cases phase : a.phase <;> simp [phase, Phase.holdsTicket] at holds ⊢
  have bound := UInt32.toNat_lt cfg.scheduler.maxActiveFlows
  have conserved := inv.conserved
  rw [ticketsOut_eq, inv.budget] at conserved
  omega

end System

/-- No receiver is dropped while a ticket is in its channel. -/
def LosesNoTicket (tr : Transition System Action Event) : Prop :=
  ∀ i, tr.action = .cancel i ∨ tr.action = .timeout i →
    ∀ a, tr.pre.admissions[i]? = some a → a.phase.ticket? = none

namespace System

theorem CountersAgree.frame (agree : s.CountersAgree)
    (active : ∀ f, (s'.flow f).active = (s.flow f).active)
    (gauge : s'.activeFlows = s.activeFlows) (live : ∀ f, s'.liveTickets f = s.liveTickets f)
    (all : s'.allLiveTickets = s.allLiveTickets) : s'.CountersAgree where
  active := by
    intro f
    rw [active, live]
    exact agree.active f
  gauge := by
    rw [gauge, all]
    exact agree.gauge

theorem liveTickets_set (s' : System) {i : Nat} {a : Admission} (found : s.admissions[i]? = some a)
    (phase : Phase) (same : s'.admissions = s.admissions.set i { a with phase }) (f : FlowId) :
    s'.liveTickets f + (if a.holdsTicketOf f then 1 else 0) =
      s.liveTickets f + (if Admission.holdsTicketOf f { a with phase } then 1 else 0) := by
  unfold liveTickets
  rw [same]
  exact Slots.countP_set found _ _

theorem allLiveTickets_set (s' : System) {i : Nat} {a : Admission} (found : s.admissions[i]? = some a)
    (phase : Phase) (same : s'.admissions = s.admissions.set i { a with phase }) :
    s'.allLiveTickets + (if a.isAdmitted then 1 else 0) =
      s.allLiveTickets + (if Admission.isAdmitted { a with phase } then 1 else 0) := by
  unfold allLiveTickets
  rw [same]
  exact Slots.countP_set found _ _

theorem CountersAgree.advance (agree : s.CountersAgree) {i : Nat} {a : Admission} (phase : Phase)
    (found : s.admissions[i]? = some a) (before : a.isAdmitted = false)
    (after : Admission.isAdmitted { a with phase } = false)
    (admissions : s'.admissions = s.admissions.set i { a with phase })
    (active : ∀ f, (s'.flow f).active = (s.flow f).active)
    (gauge : s'.activeFlows = s.activeFlows) : s'.CountersAgree := by
  have none_ : ∀ (b : Admission) f, b.isAdmitted = false → b.holdsTicketOf f = false := by
    intro b f idle
    unfold Admission.isAdmitted at idle
    unfold Admission.holdsTicketOf
    cases state : b.phase <;> simp [state] at idle ⊢
  apply agree.frame active gauge
  · intro f
    have moved := liveTickets_set s' found phase admissions f
    simpa [none_ a f before, none_ _ f after] using moved
  · have moved := allLiveTickets_set s' found phase admissions
    simpa [before, after] using moved

theorem CountersAgree.receive (agree : s.CountersAgree) {i : Nat} {a : Admission} {ticket : Ticket}
    (found : s.admissions[i]? = some a) (waiting : a.isAdmitted = false)
    (flow : ticket.flowId = a.flowId) (inv : SystemInv cfg (s.receive i a ticket)) :
    (s.receive i a ticket).CountersAgree where
  active := by
    intro f
    have bound := liveTickets_lt inv f
    have moved := liveTickets_set (s.receive i a ticket) found _ rfl f
    have idle : a.holdsTicketOf f = false := by
      unfold Admission.isAdmitted at waiting
      unfold Admission.holdsTicketOf
      cases state : a.phase <;> simp [state] at waiting ⊢
    rw [idle] at moved
    simp only [Bool.false_eq_true, if_false, Nat.add_zero, Admission.holdsTicketOf, flow,
      decide_eq_true_eq] at moved
    have counted : ((s.receive i a ticket).flow f).active =
        if f = a.flowId then (s.flow f).active + 1 else (s.flow f).active := by
      have up := flow_modifyFlow ((s.setPhase i a (.admitted ticket)).releaseGuard a.flowId)
        a.flowId Flow.incActive f
      have guard := field_modifyFlow Flow.active (Flow.decDepth) (fun _ => rfl)
        (s.setPhase i a (.admitted ticket)) a.flowId
      change (((s.setPhase i a (.admitted ticket)).releaseGuard a.flowId).modifyFlow a.flowId
        Flow.incActive |>.flow f).active = _
      rw [up]
      split
      · subst f
        exact congrArg (· + 1) (guard a.flowId)
      · exact guard f
    rw [counted, moved, ← agree.active f]
    rw [moved, ← agree.active f] at bound
    by_cases same : f = a.flowId
    · subst f
      simp only [if_true] at bound ⊢
      rw [UInt32.toNat_add]
      exact Nat.mod_eq_of_lt bound
    · have other : ¬ a.flowId = f := fun h => same h.symm
      simp [same, other]
  gauge := by
    have moved := allLiveTickets_set (s.receive i a ticket) found _ rfl
    rw [waiting] at moved
    simp only [Bool.false_eq_true, if_false, Nat.add_zero, Admission.isAdmitted, if_true] at moved
    have up : (s.receive i a ticket).activeFlows = s.activeFlows + 1 := rfl
    rw [up, moved, agree.gauge]
    push_cast
    rfl

theorem CountersAgree.dropTicket (agree : s.CountersAgree) {i : Nat} {a : Admission}
    {ticket : Ticket} (found : s.admissions[i]? = some a) (phase : a.phase = .admitted ticket) :
    (s.dropTicket i a ticket).CountersAgree where
  active := by
    intro f
    have moved := liveTickets_set (s.dropTicket i a ticket) found _ rfl f
    simp only [Admission.holdsTicketOf, phase, decide_eq_true_eq, Bool.false_eq_true, if_false,
      Nat.add_zero] at moved
    have counted : ((s.dropTicket i a ticket).flow f).active =
        if f = ticket.flowId then (s.flow f).active - 1 else (s.flow f).active := by
      have down := flow_modifyFlow s ticket.flowId Flow.decActive f
      change ((s.modifyFlow ticket.flowId Flow.decActive).flow f).active = _
      rw [down]
      split
      · subst f
        rfl
      · rfl
    rw [counted]
    by_cases same : f = ticket.flowId
    · subst f
      simp only [if_true] at moved ⊢
      rw [← agree.active ticket.flowId] at moved
      have positive : (1 : UInt32) ≤ (s.flow ticket.flowId).active := by
        rw [UInt32.le_iff_toNat_le]
        simp only [UInt32.toNat_one]
        omega
      rw [UInt32.toNat_sub_of_le _ _ positive, UInt32.toNat_one]
      omega
    · have other : ¬ ticket.flowId = f := fun h => same h.symm
      simp only [other, if_false, Nat.add_zero] at moved
      simp only [same, if_false, moved]
      exact agree.active f
  gauge := by
    have moved := allLiveTickets_set (s.dropTicket i a ticket) found _ rfl
    simp only [Admission.isAdmitted, phase, if_true, Bool.false_eq_true, if_false,
      Nat.add_zero] at moved
    have down : (s.dropTicket i a ticket).activeFlows = s.activeFlows - 1 := rfl
    rw [down, agree.gauge]
    omega

/-- A ticket that dies in its channel takes the gauge down and no live ticket
    with it. -/
theorem CountersAgree.not_closeReceiver (agree : s.CountersAgree) {i : Nat} {a : Admission}
    {pendingId : Nat} {stage : Stage} {ticket : Ticket} (found : s.admissions[i]? = some a)
    (phase : a.phase = .inQueue pendingId stage (some ticket)) :
    ¬ (s.closeReceiver i a pendingId (some ticket)).CountersAgree := by
  intro after
  have moved :=
    allLiveTickets_set (s.closeReceiver i a pendingId (some ticket)) found _ rfl
  simp only [Admission.isAdmitted, phase, Bool.false_eq_true, if_false, Nat.add_zero] at moved
  have down : (s.closeReceiver i a pendingId (some ticket)).activeFlows = s.activeFlows - 1 := rfl
  have gauge := after.gauge
  rw [down, moved, agree.gauge] at gauge
  omega

end System

section

open TinyLlb.System

/-- One step keeps the counters in agreement exactly when it loses no ticket. -/
theorem countersAgree_step (inv : SystemInv cfg s) (links : Links s) (agree : s.CountersAgree)
    (step : Step cfg arith s action event s') :
    s'.CountersAgree ↔ LosesNoTicket ⟨s, action, event, s'⟩ := by
  have after := inv.next step
  have unless_closing : (∀ i, action ≠ .cancel i ∧ action ≠ .timeout i) →
      LosesNoTicket ⟨s, action, event, s'⟩ := by
    intro other i which
    cases which with
    | inl cancelled => exact absurd cancelled (other i).1
    | inr elapsed => exact absurd elapsed (other i).2
  cases step with
  | @closeReceiver action i a pendingId since slot which found phase =>
      cases slot with
      | none =>
          apply iff_of_true
          · refine agree.advance (.unwinding (some pendingId)) found ?_ rfl rfl
              (fun _ => rfl) rfl
            simp [Admission.isAdmitted, phase]
          · intro j which' b foundB
            have same : j = i := by
              rcases which with rfl | rfl <;> simpa [eq_comm] using which'
            rw [same, found, Option.some.injEq] at foundB
            subst b
            simp [phase, Phase.ticket?]
      | some ticket =>
          refine iff_of_false (agree.not_closeReceiver found phase) ?_
          intro keeps
          have none_ := keeps i which a found
          simp [phase, Phase.ticket?] at none_
  | @leaveGate i a found phase =>
      apply iff_of_true
      · refine agree.advance (.unwinding none) found ?_ rfl rfl (fun _ => rfl) rfl
        simp [Admission.isAdmitted, phase]
      · intro j which b foundB
        obtain rfl : i = j := by simpa using which
        rw [found, Option.some.injEq] at foundB
        subst b
        simp [phase, Phase.ticket?]
  | @receive i a pendingId since ticket found phase =>
      refine iff_of_true ?_ (unless_closing (by simp))
      refine agree.receive found ?_ ?_ after
      · simp [Admission.isAdmitted, phase]
      · exact links.tickets a (List.mem_of_getElem? found) ticket (by simp [phase, Phase.ticket?])
  | dropTicket found phase =>
      exact iff_of_true (agree.dropTicket found phase) (unless_closing (by simp))
  | @arrive f workUnit room =>
      refine iff_of_true ?_ (unless_closing (by simp))
      refine agree.frame (field_modifyFlow Flow.active _ (fun _ => rfl) s f) rfl ?_ ?_
      · intro g
        simp [liveTickets, System.arrive, modifyFlow, Admission.holdsTicketOf]
      · simp [allLiveTickets, System.arrive, modifyFlow, Admission.isAdmitted]
  | @createGuard i a found phase =>
      refine iff_of_true ?_ (unless_closing (by simp))
      refine agree.advance (.atGate) found ?_ rfl rfl ?_ rfl
      · simp [Admission.isAdmitted, phase]
      · exact field_modifyFlow Flow.active (Flow.incDepth) (fun _ => rfl) (s.setPhase i a .atGate)
          a.flowId
  | @enqueue i a found phase =>
      refine iff_of_true ?_ (unless_closing (by simp))
      refine agree.advance (.inQueue s.inner.nextPendingId .pushed none) found ?_ rfl rfl
        (fun _ => rfl) rfl
      simp [Admission.isAdmitted, phase]
  | @stamp i a pendingId slot found phase =>
      refine iff_of_true ?_ (unless_closing (by simp))
      refine agree.advance (.inQueue pendingId .stamped slot) found ?_ rfl rfl ?_ rfl
      · simp [Admission.isAdmitted, phase]
      · exact field_modifyFlow Flow.active (fun flow => flow.setEnqueuedAt (some a.enter))
          (fun _ => rfl) (s.setPhase i a (.inQueue pendingId .stamped slot)) a.flowId
  | @notify i a pendingId slot found phase =>
      refine iff_of_true ?_ (unless_closing (by simp))
      refine agree.advance (.inQueue pendingId (.polling s.now) slot) found ?_ rfl rfl
        (fun _ => rfl) rfl
      simp [Admission.isAdmitted, phase]
  | @dropGuard i a pendingId found phase =>
      refine iff_of_true ?_ (unless_closing (by simp))
      refine agree.advance (.finished) found ?_ rfl rfl ?_ rfl
      · simp [Admission.isAdmitted, phase]
      · intro f
        have cleared := field_modifyFlow Flow.active (fun flow => flow.setEnqueuedAt none)
          (fun _ => rfl) ((s.setPhase i a .finished).releaseGuard a.flowId) a.flowId f
        have released := field_modifyFlow Flow.active (Flow.decDepth) (fun _ => rfl)
          (s.setPhase i a .finished) a.flowId f
        exact cleared.trans released
  | @wake i a pendingId found phase =>
      refine iff_of_true ?_ (unless_closing (by simp))
      cases pendingId with
      | none =>
          refine agree.advance (.finished) found ?_ rfl rfl (fun _ => rfl) rfl
          simp [Admission.isAdmitted, phase]
      | some id =>
          refine agree.advance (.unwinding (some id)) found ?_ rfl rfl (fun _ => rfl) rfl
          simp [Admission.isAdmitted, phase]
  | @round cap r pc spec =>
      refine iff_of_true ?_ (unless_closing (by simp))
      refine agree.frame ?_ rfl (fun _ => rfl) rfl
      intro f
      exact field_afterRound Flow.active (fun _ _ _ => rfl) spec f
  | @sent sel a pendingId stage pc found phase =>
      refine iff_of_true ?_ (unless_closing (by simp))
      refine agree.advance (.inQueue pendingId stage _) found ?_ rfl rfl (fun _ => rfl) rfl
      simp [Admission.isAdmitted, phase]
  | @register reg =>
      refine iff_of_true ?_ (unless_closing (by simp))
      refine agree.frame ?_ rfl (fun _ => rfl) rfl
      exact field_modifyFlow Flow.active (fun flow =>
        { flow with weight := reg.weight, priority := reg.priority, prioritySource := 2 })
        (fun _ => rfl) s reg.id
  | rejected =>
      refine iff_of_true ?_ (unless_closing (by simp))
      exact agree.frame (field_modifyFlow Flow.active _ (fun _ => rfl) s _) rfl (fun _ => rfl) rfl
  | setPriority | reportAccounting =>
      refine iff_of_true ?_ (unless_closing (by simp))
      refine agree.frame ?_ rfl (fun _ => rfl) rfl
      apply field_modifyFlow Flow.active
      intro flow
      rfl
  | _ =>
      refine iff_of_true ?_ (unless_closing (by simp))
      exact agree.frame (fun _ => rfl) rfl (fun _ => rfl) rfl

theorem countersAgree_start (cfg : Config) : (System.start cfg).CountersAgree :=
  ⟨fun _ => rfl, rfl⟩

theorem countersAgree_last {ts} (run : (scheduler cfg arith).Exec (System.start cfg) ts s)
    (posts : ∀ tr ∈ ts, tr.post.CountersAgree) : s.CountersAgree := by
  cases run with
  | nil => exact countersAgree_start cfg
  | snoc before step =>
      have last := posts _ (List.mem_append_right _ List.mem_cons_self)
      exact last

end

/-- Along a run the counters agree with the live tickets in every state exactly
    when no receiver is ever dropped over a ticket. -/
theorem active_counters (cfg : Config) (arith : I64Arith) {ts s}
    (run : (scheduler cfg arith).Exec (System.start cfg) ts s) :
    (∀ tr ∈ ts, tr.post.CountersAgree) ↔ ∀ tr ∈ ts, LosesNoTicket tr := by
  induction run with
  | nil => simp
  | @snoc ts t a u e before step ih =>
      have reach : (scheduler cfg arith).Reachable t := ⟨ts, before⟩
      have inv := SystemInv.reachable reach
      have links := Links.reachable reach
      simp only [List.forall_mem_append, List.forall_mem_singleton]
      constructor
      · rintro ⟨posts, last⟩
        have agree := countersAgree_last before posts
        exact ⟨ih.mp posts, (countersAgree_step inv links agree (inv.step_of_next step)).mp last⟩
      · rintro ⟨keeps, last⟩
        have posts := ih.mpr keeps
        have agree := countersAgree_last before posts
        exact ⟨posts, (countersAgree_step inv links agree (inv.step_of_next step)).mpr last⟩

/-- A ticket is received and dropped again. -/
theorem active_counters_received :
    let m := scheduler .default .wrapping
    let ts := m.trace (sendOne ⟨"a"⟩ (.fin 1) 0 ++ [.receive 0, .dropTicket 0])
    ts.length = 12 ∧
      ((∀ tr ∈ ts, tr.post.CountersAgree) ↔ ∀ tr ∈ ts, LosesNoTicket tr) := by
  exact ⟨by decide +kernel, active_counters .default .wrapping (Machine.exec_after _ _)⟩

/-- The caller goes away while its ticket is in the channel: the counter of the
    flow wraps and the gauge is negative, with no ticket alive. -/
theorem active_counters_wrap :
    let m := scheduler .default .wrapping
    let s := m.after (sendOne ⟨"a"⟩ (.fin 1) 0 ++ [.cancel 0])
    m.Reachable s ∧ (s.flow ⟨"a"⟩).active = 4294967295 ∧ s.liveTickets ⟨"a"⟩ = 0 ∧
      s.activeFlows = -1 ∧ s.allLiveTickets = 0 ∧ ¬ s.CountersAgree := by
  refine ⟨Machine.reachable_after _ _, by decide +kernel, by decide +kernel, by decide +kernel,
    by decide +kernel, ?_⟩
  intro agree
  have wrapped := agree.active ⟨"a"⟩
  revert wrapped
  decide +kernel

end TinyLlb
