import TinyLlb.Runtime.System

/-! # What one step of the system does

`SystemInv` is what every reachable state keeps: the three collections of the
scheduler agree, every permit has an owner, and the loop carries a cap within
the budget. Under it no step panics, and `Step` lists everything a step can do.
Later modules take a step apart by its cases and never unfold `nextSystem`.
-/

namespace TinyLlb

/-- A ticket that was sent and has not been given back. -/
def Phase.holdsTicket : Phase → Bool
  | .inQueue _ _ (some _) => true
  | .admitted _ => true
  | _ => false

/-- The loop has popped a request and not sent its ticket yet. -/
def LoopPc.holdsTicket : LoopPc → Bool
  | .send _ => true
  | _ => false

/-- The cap that the loop has read for the round it is in. -/
def LoopPc.cap? : LoopPc → Option Nat
  | .readState cap => some cap
  | .select cap => some cap
  | _ => none

/-- Tickets that own a permit: in the hands of the loop, in a channel, or held
    by a caller. -/
def System.ticketsOut (s : System) : Nat :=
  (if s.pc.holdsTicket then 1 else 0) + s.admissions.countP fun a => a.phase.holdsTicket

structure SystemInv (cfg : Config) (s : System) : Prop where
  repInv : RepInv s.inner
  budget : s.inner.maxPermits = cfg.scheduler.maxActiveFlows.toNat
  conserved : s.inner.availablePermits + s.ticketsOut = s.inner.maxPermits
  caps : ∀ cap ∈ s.pc.cap?, cap ≤ s.inner.maxPermits
  running : ∀ panic, s.pc ≠ .panicked panic

open TinyLlb.System in
inductive Step (cfg : Config) (arith : I64Arith) (s : System) :
    Action → Option Event → System → Prop where
  | rejected {f workUnit} (full : s.rejects cfg f = true) :
      Step cfg arith s (.arrive f workUnit) none (s.modifyFlow f id)
  | arrive {f workUnit} (room : s.rejects cfg f = false) :
      Step cfg arith s (.arrive f workUnit) none (s.arrive f workUnit)
  | createGuard {i a} (found : s.admissions[i]? = some a) (phase : a.phase = .entered) :
      Step cfg arith s (.createGuard i) none (s.createGuard i a)
  | enqueue {i a} (found : s.admissions[i]? = some a) (phase : a.phase = .atGate) :
      Step cfg arith s (.enqueue i)
        (some (.enqueued i a.flowId ⟨s.inner.nextPendingId, i, a.enter, a.workUnit⟩))
        (s.enqueue i a)
  | stamp {i a pendingId slot} (found : s.admissions[i]? = some a)
      (phase : a.phase = .inQueue pendingId .pushed slot) :
      Step cfg arith s (.stamp i) none (s.stamp i a pendingId slot)
  | notify {i a pendingId slot} (found : s.admissions[i]? = some a)
      (phase : a.phase = .inQueue pendingId .stamped slot) :
      Step cfg arith s (.notify i) none (s.notify i a pendingId slot)
  | receive {i a pendingId since ticket} (found : s.admissions[i]? = some a)
      (phase : a.phase = .inQueue pendingId (.polling since) (some ticket)) :
      Step cfg arith s (.receive i) none (s.receive i a ticket)
  | leaveGate {i a} (found : s.admissions[i]? = some a) (phase : a.phase = .atGate) :
      Step cfg arith s (.cancel i) none (s.setPhase i a (.unwinding none))
  | closeReceiver {action i a pendingId since slot}
      (which : action = .cancel i ∨ action = .timeout i) (found : s.admissions[i]? = some a)
      (phase : a.phase = .inQueue pendingId (.polling since) slot) :
      Step cfg arith s action none (s.closeReceiver i a pendingId slot)
  | dropGuard {i a pendingId} (found : s.admissions[i]? = some a)
      (phase : a.phase = .unwinding pendingId) :
      Step cfg arith s (.dropGuard i)
        (some (.cancelled i a.flowId
          ((s.inner.queue a.flowId).filter fun p => decide (pendingId = some p.pendingId))))
        (s.dropGuard i a pendingId)
  | dropTicket {i a ticket} (found : s.admissions[i]? = some a)
      (phase : a.phase = .admitted ticket) :
      Step cfg arith s (.dropTicket i) none (s.dropTicket i a ticket)
  | wake {i a pendingId} (found : s.admissions[i]? = some a) (phase : a.phase = .waking pendingId) :
      Step cfg arith s (.wake i) none (s.wake i a pendingId)
  | wakeNotified (pc : s.pc = .parked) (notified : s.notified = true) :
      Step cfg arith s .wakeNotified none { s with notified := false, pc := .readCap }
  | wakeChanged (pc : s.pc = .parked) (alive : s.monitorAlive = true)
      (unseen : s.seen ≠ s.snapshots.version) :
      Step cfg arith s .wakeChanged none { s with seen := s.snapshots.version, pc := .readCap }
  | wakeClosed (pc : s.pc = .parked) (alive : s.monitorAlive = true)
      (seen : s.seen = s.snapshots.version) (closed : s.snapshots.closed = true) :
      Step cfg arith s .wakeClosed none { s with monitorAlive := false, pc := .readCap }
  | readCap (pc : s.pc = .readCap) :
      Step cfg arith s .readCap (some (.capRead s.pressure (s.effectiveCap cfg)))
        { s with pc := .readState (s.effectiveCap cfg) }
  | park {cap} (pc : s.pc = .readState cap)
      (idle : cap ≤ s.inner.outstanding ∨ s.inner.rrCursor = []) :
      Step cfg arith s .readState none { s with pc := .parked }
  | proceed {cap} (pc : s.pc = .readState cap) (under : s.inner.outstanding < cap)
      (some_ : s.inner.rrCursor ≠ []) :
      Step cfg arith s .readState none { s with pc := .select cap }
  | round {cap r} (pc : s.pc = .select cap)
      (spec : RoundSpec (s.selectEnv cfg arith cap) s.registry s.inner r) :
      Step cfg arith s .trySelect
        (r.selection.map fun selection => .selected selection r.forceAdmit.isSome) (s.afterRound r)
  | sent {selection a pendingId stage} (pc : s.pc = .send selection)
      (found : s.admissions[selection.pending.tx]? = some a)
      (phase : a.phase = .inQueue pendingId stage none) :
      Step cfg arith s .send none (s.deliverTicket selection a pendingId stage)
  | sendFailed {selection a} (pc : s.pc = .send selection)
      (found : s.admissions[selection.pending.tx]? = some a)
      (gone : (∃ pendingId, a.phase = .unwinding pendingId) ∨ a.phase = .finished) :
      Step cfg arith s .send none s.failedSend
  | publish {kvUsage} (live : s.snapshots.closed = false) :
      Step cfg arith s (.publish kvUsage) none
        { s with snapshots := ⟨s.snapshots.version + 1, kvUsage, false⟩ }
  | closeMonitor :
      Step cfg arith s .closeMonitor none
        { s with snapshots := { s.snapshots with closed := true } }
  | tick {elapsed} : Step cfg arith s (.tick elapsed) none { s with now := s.now + elapsed }
  | register {reg} (positive : reg.weight.isLe 0 = false) (inRange : reg.priority ≤ 100) :
      Step cfg arith s (.register reg) none { s with registry := s.registry.register reg }
  | setPriority {f priority source} :
      Step cfg arith s (.setPriority f priority source) none
        (s.modifyFlow f fun flow => flow.setPriority priority source)
  | reportAccounting {f restoreCost} :
      Step cfg arith s (.reportAccounting f restoreCost) none
        (s.modifyFlow f fun flow =>
          { flow with credit := arith.store (flow.credit + restoreCost) })
  | deliver {f tokens} :
      Step cfg arith s (.deliver f tokens) none
        { s with delivered := Function.update s.delivered f tokens }

namespace SystemInv

variable {cfg : Config} {arith : I64Arith} {s s' : System} {action : Action} {event : Option Event}

theorem permits (inv : SystemInv cfg s) : s.inner.availablePermits ≤ s.inner.maxPermits := by
  have conserved := inv.conserved
  omega

theorem outstanding_eq (inv : SystemInv cfg s) : s.inner.outstanding = s.ticketsOut := by
  have conserved := inv.conserved
  unfold DrrState.outstanding
  omega

/-- The subtraction in `readState` does not overflow. -/
theorem checkedSub_permits (inv : SystemInv cfg s) :
    checkedSub s.inner.maxPermits s.inner.availablePermits = .ok s.inner.outstanding := by
  simp only [checkedSub, inv.permits, if_true, DrrState.outstanding]

theorem trySelect_ok (inv : SystemInv cfg s) (arith : I64Arith) {cap : Nat} (pc : s.pc = .select cap) :
    ∃ r, trySelect (s.selectEnv cfg arith cap) s.registry s.inner = .ok r ∧
      RoundSpec (s.selectEnv cfg arith cap) s.registry s.inner r := by
  refine trySelect_spec _ _ inv.repInv ?_ inv.permits
  exact inv.caps cap (by simp [pc, LoopPc.cap?])

/-- Every step is one of the listed ones. -/
theorem step_of_next (inv : SystemInv cfg s)
    (h : nextSystem cfg arith s action = some (s', event)) : Step cfg arith s action event s' := by
  cases action with
  | arrive f workUnit =>
      simp only [nextSystem] at h
      split at h
      · cases h
        exact .rejected ‹_›
      · rename_i room
        cases h
        exact .arrive (Bool.eq_false_of_not_eq_true room)
  | createGuard i =>
      obtain ⟨a, found, h⟩ := Option.bind_eq_some_iff.mp h
      split at h
      · cases h
        exact .createGuard found ‹_›
      · cases h
  | enqueue i =>
      obtain ⟨a, found, h⟩ := Option.bind_eq_some_iff.mp h
      split at h
      · cases h
        exact .enqueue found ‹_›
      · cases h
  | stamp i =>
      obtain ⟨a, found, h⟩ := Option.bind_eq_some_iff.mp h
      split at h
      · cases h
        exact .stamp found ‹_›
      · cases h
  | notify i =>
      obtain ⟨a, found, h⟩ := Option.bind_eq_some_iff.mp h
      split at h
      · cases h
        exact .notify found ‹_›
      · cases h
  | receive i =>
      obtain ⟨a, found, h⟩ := Option.bind_eq_some_iff.mp h
      split at h
      · cases h
        exact .receive found ‹_›
      · cases h
  | cancel i =>
      obtain ⟨a, found, h⟩ := Option.bind_eq_some_iff.mp h
      split at h
      · cases h
        exact .leaveGate found ‹_›
      · cases h
        exact .closeReceiver (.inl rfl) found ‹_›
      · cases h
  | timeout i =>
      obtain ⟨a, found, h⟩ := Option.bind_eq_some_iff.mp h
      split at h
      · split at h
        · cases h
          exact .closeReceiver (.inr rfl) found ‹_›
        · cases h
      · cases h
  | dropGuard i =>
      obtain ⟨a, found, h⟩ := Option.bind_eq_some_iff.mp h
      split at h
      · cases h
        exact .dropGuard found ‹_›
      · cases h
  | dropTicket i =>
      obtain ⟨a, found, h⟩ := Option.bind_eq_some_iff.mp h
      split at h
      · cases h
        exact .dropTicket found ‹_›
      · cases h
  | wake i =>
      obtain ⟨a, found, h⟩ := Option.bind_eq_some_iff.mp h
      split at h
      · cases h
        exact .wake found ‹_›
      · cases h
  | wakeNotified =>
      simp only [nextSystem] at h
      split at h
      · rename_i ready
        cases h
        exact .wakeNotified ready.1 ready.2
      · cases h
  | wakeChanged =>
      simp only [nextSystem] at h
      split at h
      · rename_i ready
        cases h
        exact .wakeChanged ready.1 ready.2.1 ready.2.2
      · cases h
  | wakeClosed =>
      simp only [nextSystem] at h
      split at h
      · rename_i ready
        cases h
        exact .wakeClosed ready.1 ready.2.1 ready.2.2.1 ready.2.2.2
      · cases h
  | readCap =>
      simp only [nextSystem] at h
      split at h
      · cases h
        exact .readCap ‹_›
      · cases h
  | readState =>
      simp only [nextSystem, inv.checkedSub_permits] at h
      split at h
      · rename_i cap pc
        split at h
        · rename_i idle
          cases h
          exact .park pc (idle.imp id List.isEmpty_iff.mp)
        · rename_i busy
          cases h
          simp only [ge_iff_le, List.isEmpty_iff, not_or, not_le] at busy
          exact .proceed pc busy.1 busy.2
      · cases h
  | trySelect =>
      simp only [nextSystem] at h
      split at h
      · rename_i cap pc
        obtain ⟨r, returned, spec⟩ := inv.trySelect_ok arith pc
        simp only [returned] at h
        cases h
        exact .round pc spec
      · cases h
  | send =>
      simp only [nextSystem] at h
      split at h
      · rename_i selection pc
        obtain ⟨a, found, h⟩ := Option.bind_eq_some_iff.mp h
        split at h
        · cases h
          exact .sent pc found ‹_›
        · cases h
          exact .sendFailed pc found (.inl ⟨_, ‹_›⟩)
        · cases h
          exact .sendFailed pc found (.inr ‹_›)
        · cases h
      · cases h
  | publish kvUsage =>
      simp only [nextSystem] at h
      split at h
      · cases h
      · rename_i live
        cases h
        exact .publish (Bool.eq_false_of_not_eq_true live)
  | closeMonitor =>
      cases h
      exact .closeMonitor
  | tick elapsed =>
      cases h
      exact .tick
  | register reg =>
      simp only [nextSystem] at h
      split at h
      · cases h
      · rename_i accepted
        cases h
        simp only [Bool.or_eq_true, decide_eq_true_eq, not_or, Bool.not_eq_true, not_lt] at accepted
        exact .register accepted.1 accepted.2
  | setPriority f priority source =>
      cases h
      exact .setPriority
  | reportAccounting f restoreCost =>
      cases h
      exact .reportAccounting
  | deliver f tokens =>
      cases h
      exact .deliver

end SystemInv

namespace System

theorem flow_modifyFlow (s : System) (f : FlowId) (write : Flow → Flow) (g : FlowId) :
    (s.modifyFlow f write).flow g = if g = f then write (s.flow f) else s.flow g := by
  simp only [flow, modifyFlow, FlowRegistry.getOrCreate_modify]

theorem field_modifyFlow {β : Type} (field : Flow → β) (write : Flow → Flow)
    (keeps : ∀ flow, field (write flow) = field flow) (s : System) (f g : FlowId) :
    field ((s.modifyFlow f write).flow g) = field (s.flow g) := by
  rw [flow_modifyFlow]
  split
  · subst g
    exact keeps _
  · rfl

theorem field_afterRound {β : Type} (field : Flow → β)
    (keeps : ∀ flow credit at_, field { flow with credit, enqueuedAt := at_ } = field flow)
    {env : SelectEnv} {s : System} {r : Round} (spec : RoundSpec env s.registry s.inner r)
    (g : FlowId) : field ((s.afterRound r).flow g) = field (s.flow g) := by
  change field (r.registry.getOrCreate g) = _
  cases spec with
  | atCap | nobody | barren => rfl
  | forced | regular =>
      rw [TrySelect.debit, FlowRegistry.getOrCreate_modify]
      split
      · subst g
        exact keeps _ _ _
      · rfl

end System

section

variable {cfg : Config} {arith : I64Arith} {s s' : System} {action : Action} {event : Option Event}

/-- Registrations and priority changes apart, a step writes the depth, credit,
    timestamp and active counter of a flow only. -/
theorem Step.field_eq {β : Type} (step : Step cfg arith s action event s') (field : Flow → β)
    (keeps : ∀ flow depth credit at_ active,
      field { flow with depth, credit, enqueuedAt := at_, active } = field flow)
    (unregistered : ∀ reg, action ≠ .register reg)
    (priority : (∀ f p source, action ≠ .setPriority f p source) ∨
      ∀ flow p source, field (Flow.setPriority flow p source) = field flow) (f : FlowId) :
    field (s'.flow f) = field (s.flow f) := by
  have book : ∀ (t : System) (g : FlowId) (write : Flow → Flow),
      (∀ flow, ∃ depth credit at_ active,
        write flow = { flow with depth, credit, enqueuedAt := at_, active }) →
      field ((t.modifyFlow g write).flow f) = field (t.flow f) := by
    intro t g write shape
    refine System.field_modifyFlow field write ?_ t g f
    intro flow
    obtain ⟨depth, credit, at_, active, written⟩ := shape flow
    rw [written]
    exact keeps flow depth credit at_ active
  cases step with
  | rejected => exact book s _ id fun flow => ⟨_, _, _, _, rfl⟩
  | arrive => exact book s _ id fun flow => ⟨_, _, _, _, rfl⟩
  | @createGuard i a =>
      exact book (s.setPhase i a .atGate) _ Flow.incDepth fun flow => ⟨_, _, _, _, rfl⟩
  | @stamp i a pendingId slot =>
      exact book (s.setPhase i a (.inQueue pendingId .stamped slot)) _
        (fun flow => flow.setEnqueuedAt (some a.enter)) fun flow => ⟨_, _, _, _, rfl⟩
  | @receive i a _ _ ticket =>
      have up := book ((s.setPhase i a (.admitted ticket)).releaseGuard a.flowId) a.flowId
        Flow.incActive fun flow => ⟨_, _, _, _, rfl⟩
      have released := book (s.setPhase i a (.admitted ticket)) a.flowId Flow.decDepth
        fun flow => ⟨_, _, _, _, rfl⟩
      exact up.trans released
  | closeReceiver =>
      unfold System.closeReceiver
      split
      · exact book s _ Flow.decActive fun flow => ⟨_, _, _, _, rfl⟩
      · rfl
  | @dropGuard i a pendingId =>
      have cleared := book ((s.setPhase i a .finished).releaseGuard a.flowId) a.flowId
        (fun flow => flow.setEnqueuedAt none) fun flow => ⟨_, _, _, _, rfl⟩
      have released := book (s.setPhase i a .finished) a.flowId Flow.decDepth
        fun flow => ⟨_, _, _, _, rfl⟩
      exact cleared.trans released
  | dropTicket => exact book s _ Flow.decActive fun flow => ⟨_, _, _, _, rfl⟩
  | round pc spec =>
      exact System.field_afterRound field (fun flow credit at_ => keeps flow _ credit at_ _) spec f
  | register => exact absurd rfl (unregistered _)
  | setPriority =>
      cases priority with
      | inl other => exact absurd rfl (other _ _ _)
      | inr kept =>
          apply System.field_modifyFlow
          intro flow
          exact kept flow _ _
  | @reportAccounting g restoreCost =>
      exact book s g (fun flow => { flow with credit := arith.store (flow.credit + restoreCost) })
        fun flow => ⟨_, _, _, _, rfl⟩
  | _ => rfl

theorem Step.weight_eq (step : Step cfg arith s action event s')
    (unregistered : ∀ reg, action ≠ .register reg) (f : FlowId) :
    (s'.flow f).weight = (s.flow f).weight :=
  step.field_eq Flow.weight (fun _ _ _ _ _ => rfl) unregistered (.inr fun _ _ _ => rfl) f

theorem Step.rank_eq (step : Step cfg arith s action event s')
    (unregistered : ∀ reg, action ≠ .register reg)
    (unmoved : ∀ f p source, action ≠ .setPriority f p source) (f : FlowId) :
    (s'.flow f).weight = (s.flow f).weight ∧ (s'.flow f).priority = (s.flow f).priority := by
  refine ⟨step.weight_eq unregistered f, ?_⟩
  exact step.field_eq Flow.priority (fun _ _ _ _ _ => rfl) unregistered (.inl unmoved) f

theorem Step.mem_queue (step : Step cfg arith s action event s') {f : FlowId} {p : Pending}
    (member : p ∈ s'.inner.queue f) :
    p ∈ s.inner.queue f ∨ ∃ i, event = some (.enqueued i f p) := by
  cases step with
  | @enqueue i a =>
      have queue : (s.enqueue i a).inner.queue f = _ := DrrState.queue_enqueue _ _ _ _ _ f
      rw [queue] at member
      split at member
      · subst f
        cases List.mem_append.mp member with
        | inl old => exact .inl old
        | inr new =>
            obtain rfl := List.mem_singleton.mp new
            exact .inr ⟨i, rfl⟩
      · exact .inl member
  | @dropGuard i a pendingId =>
      have queue : (s.dropGuard i a pendingId).inner.queue f = _ := DrrState.queue_dropGuard _ _ _ f
      rw [queue] at member
      split at member
      · subst f
        exact .inl (DrrState.mem_kept.mp member).1
      · exact .inl member
  | @round cap r pc spec =>
      left
      change p ∈ r.state.queue f at member
      cases selected : r.selection with
      | none =>
          rw [DrrState.queue, (spec.waiting_eq selected).1] at member
          exact member
      | some selection =>
          obtain ⟨-, rest, served⟩ := spec.served selected
          rw [served.queue] at member
          split at member
          · subst f
            rw [served.head]
            exact List.mem_cons_of_mem _ member
          · exact member
  | closeReceiver =>
      unfold System.closeReceiver at member
      split at member <;> exact .inl member
  | _ => exact .inl member

end

/-- The ways of admission `i` from one phase to the next. -/
inductive PhaseMove (s : System) (i : Nat) : Action → Phase → Phase → Prop where
  | createGuard : PhaseMove s i (.createGuard i) .entered .atGate
  | enqueue : PhaseMove s i (.enqueue i) .atGate (.inQueue s.inner.nextPendingId .pushed none)
  | stamp {pendingId slot} :
      PhaseMove s i (.stamp i) (.inQueue pendingId .pushed slot) (.inQueue pendingId .stamped slot)
  | notify {pendingId slot} :
      PhaseMove s i (.notify i) (.inQueue pendingId .stamped slot)
        (.inQueue pendingId (.polling s.now) slot)
  | receive {pendingId since ticket} :
      PhaseMove s i (.receive i) (.inQueue pendingId (.polling since) (some ticket))
        (.admitted ticket)
  | leaveGate : PhaseMove s i (.cancel i) .atGate (.unwinding none)
  | closeEmpty {action pendingId since} (which : action = .cancel i ∨ action = .timeout i) :
      PhaseMove s i action (.inQueue pendingId (.polling since) none) (.unwinding (some pendingId))
  | closeFull {action pendingId since ticket} (which : action = .cancel i ∨ action = .timeout i) :
      PhaseMove s i action (.inQueue pendingId (.polling since) (some ticket))
        (.waking (some pendingId))
  | dropGuard {pendingId} : PhaseMove s i (.dropGuard i) (.unwinding pendingId) .finished
  | dropTicket {ticket} : PhaseMove s i (.dropTicket i) (.admitted ticket) (.waking none)
  | wakeGuard {id} : PhaseMove s i (.wake i) (.waking (some id)) (.unwinding (some id))
  | wakeLast : PhaseMove s i (.wake i) (.waking none) .finished
  | sent {selection pendingId stage} (pc : s.pc = .send selection) (mine : selection.pending.tx = i) :
      PhaseMove s i .send (.inQueue pendingId stage none)
        (.inQueue pendingId stage (some ⟨selection.flowId, selection.workUnit⟩))

/-- A step adds an admission, moves one on, or leaves them all alone. -/
inductive TableChange (s : System) (action : Action) (s' : System) : Prop where
  | arrived (f : FlowId) (workUnit : F64) (which : action = .arrive f workUnit)
      (admissions : s'.admissions = s.admissions ++ [⟨f, workUnit, s.now, .entered⟩])
  | moved (i : Nat) (a : Admission) (phase : Phase) (found : s.admissions[i]? = some a)
      (move : PhaseMove s i action a.phase phase)
      (admissions : s'.admissions = s.admissions.set i { a with phase })
  | kept (other : ∀ i, action ≠ .createGuard i) (admissions : s'.admissions = s.admissions)

section

variable {cfg : Config} {arith : I64Arith} {s s' : System} {action : Action} {event : Option Event}

theorem Step.tableChange (step : Step cfg arith s action event s') : TableChange s action s' := by
  cases step with
  | arrive => exact .arrived _ _ rfl rfl
  | @createGuard i a found phase => exact .moved i a .atGate found (phase ▸ .createGuard) rfl
  | @enqueue i a found phase => exact .moved i a _ found (phase ▸ .enqueue) rfl
  | @stamp i a pendingId slot found phase => exact .moved i a _ found (phase ▸ .stamp) rfl
  | @notify i a pendingId slot found phase => exact .moved i a _ found (phase ▸ .notify) rfl
  | @receive i a pendingId since ticket found phase => exact .moved i a _ found (phase ▸ .receive) rfl
  | @leaveGate i a found phase => exact .moved i a _ found (phase ▸ .leaveGate) rfl
  | @closeReceiver _ i a pendingId since slot which found phase =>
      cases slot with
      | none => exact .moved i a _ found (phase ▸ .closeEmpty which) rfl
      | some ticket => exact .moved i a _ found (phase ▸ .closeFull which) rfl
  | @dropGuard i a pendingId found phase => exact .moved i a _ found (phase ▸ .dropGuard) rfl
  | @dropTicket i a ticket found phase => exact .moved i a _ found (phase ▸ .dropTicket) rfl
  | @wake i a pendingId found phase =>
      cases pendingId with
      | none => exact .moved i a _ found (phase ▸ .wakeLast) rfl
      | some id => exact .moved i a _ found (phase ▸ .wakeGuard) rfl
  | @sent selection a pendingId stage pc found phase =>
      exact .moved _ a _ found (phase ▸ .sent pc rfl) rfl
  | _ => exact .kept (by simp) rfl

end

namespace Step

variable {cfg : Config} {arith : I64Arith} {s s' : System} {action : Action} {event : Option Event}

theorem of_enqueued {i : Nat} {f : FlowId} {p : Pending} (step : Step cfg arith s action event s')
    (emitted : event = some (.enqueued i f p)) :
    ∃ a, action = .enqueue i ∧ s.admissions[i]? = some a ∧ a.phase = .atGate ∧ f = a.flowId ∧
      p = ⟨s.inner.nextPendingId, i, a.enter, a.workUnit⟩ ∧ s' = s.enqueue i a := by
  cases step with
  | enqueue found phase =>
      cases emitted
      exact ⟨_, rfl, found, phase, rfl, rfl, rfl⟩
  | @round _ r =>
      cases selected : r.selection <;> simp [selected] at emitted
  | _ => cases emitted

theorem of_cancelled {i : Nat} {f : FlowId} {removed : List Pending}
    (step : Step cfg arith s action event s') (emitted : event = some (.cancelled i f removed)) :
    ∃ a pendingId, action = .dropGuard i ∧ s.admissions[i]? = some a ∧
      a.phase = .unwinding pendingId ∧ f = a.flowId ∧
      removed = ((s.inner.queue f).filter fun p => decide (pendingId = some p.pendingId)) ∧
      s' = s.dropGuard i a pendingId := by
  cases step with
  | dropGuard found phase =>
      cases emitted
      exact ⟨_, _, rfl, found, phase, rfl, rfl, rfl⟩
  | @round _ r =>
      cases selected : r.selection <;> simp [selected] at emitted
  | _ => cases emitted

theorem of_selected {selection : Selection} {forced : Bool}
    (step : Step cfg arith s action event s')
    (emitted : event = some (.selected selection forced)) :
    ∃ cap r, action = .trySelect ∧ s.pc = .select cap ∧
      RoundSpec (s.selectEnv cfg arith cap) s.registry s.inner r ∧
      r.selection = some selection ∧ forced = r.forceAdmit.isSome ∧ s' = s.afterRound r := by
  cases step with
  | @round cap r pc spec =>
      cases selected : r.selection with
      | none => simp [selected] at emitted
      | some chosen =>
          simp only [selected, Option.map_some, Option.some.injEq, Event.selected.injEq] at emitted
          obtain ⟨rfl, rfl⟩ := emitted
          exact ⟨cap, r, rfl, pc, spec, selected, rfl, rfl⟩
  | _ => cases emitted

theorem of_capRead {pressure : ℚ} {cap : Nat} (step : Step cfg arith s action event s')
    (emitted : event = some (.capRead pressure cap)) :
    action = .readCap ∧ s.pc = .readCap ∧ pressure = s.pressure ∧ cap = s.effectiveCap cfg ∧
      s' = { s with pc := .readState cap } := by
  cases step with
  | readCap pc =>
      cases emitted
      exact ⟨rfl, pc, rfl, rfl, rfl⟩
  | @round _ r =>
      cases selected : r.selection <;> simp [selected] at emitted
  | _ => cases emitted

theorem of_dropGuard {i : Nat} (step : Step cfg arith s action event s')
    (drops : action = .dropGuard i) :
    ∃ a pendingId, s.admissions[i]? = some a ∧ a.phase = .unwinding pendingId ∧
      s' = s.dropGuard i a pendingId := by
  cases step with
  | dropGuard found phase =>
      cases drops
      exact ⟨_, _, found, phase, rfl⟩
  | closeReceiver which =>
      subst drops
      simp at which
  | _ => cases drops

end Step

section

variable {cfg : Config} {arith : I64Arith} {s : System}

theorem exec_cons {a e t ts u} (step : nextSystem cfg arith s a = some (t, e))
    (rest : (scheduler cfg arith).Exec t ts u) :
    (scheduler cfg arith).Exec s (⟨s, a, e, t⟩ :: ts) u := Machine.Exec.cons step rest

theorem nextSystem_readState (inv : SystemInv cfg s) (cap : Nat) (pc : s.pc = .readState cap)
    (under : s.inner.outstanding < cap) (some_ : s.inner.rrCursor ≠ []) :
    nextSystem cfg arith s .readState = some ({ s with pc := .select cap }, none) := by
  have busy : ¬ (s.inner.outstanding ≥ cap ∨ s.inner.rrCursor.isEmpty = true) := by
    simp only [List.isEmpty_iff, not_or]
    exact ⟨by omega, some_⟩
  simp only [nextSystem, pc, inv.checkedSub_permits, busy, if_false]

theorem nextSystem_trySelect {cap : Nat} {r : Round} (pc : s.pc = .select cap)
    (returned : trySelect (s.selectEnv cfg arith cap) s.registry s.inner = .ok r) :
    nextSystem cfg arith s .trySelect =
      some (s.afterRound r,
        r.selection.map fun selection => .selected selection r.forceAdmit.isSome) := by
  simp only [nextSystem, pc, returned]

end

end TinyLlb
