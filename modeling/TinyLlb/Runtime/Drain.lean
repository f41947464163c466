import TinyLlb.Library.Inevitable
import TinyLlb.Runtime.InnerLoop
import TinyLlb.Runtime.QueueDepth
import TinyLlb.Runtime.Requests
import TinyLlb.Runtime.Wakeup

/-! # A system that is left alone runs dry

Once no more requests arrive and no more snapshots are published, every
admission comes to its end: it is granted a ticket and gives it back, or it
leaves the queue. Four quantities show that this cannot go on for ever. What is
left to do for the admissions never grows. Where it stays the same a wake-up is
used up, or the flows in the cursor come nearer to the cost of their heads, or
the loop gets nearer to its next sleep. That it does not stop short is the
invariant of the wake-ups, together with the fact that whoever waits for a
ticket is in a queue or in the hands of the loop.
-/

namespace TinyLlb

/-- Actions that a task takes by itself. A caller that holds a ticket is done
    with its request at some time and drops it. -/
def Action.isDue : Action → Bool
  | .createGuard _ | .enqueue _ | .stamp _ | .notify _ | .receive _ | .dropGuard _ | .dropTicket _
  | .wake _ | .wakeNotified | .wakeChanged | .wakeClosed | .readCap | .readState | .trySelect
  | .send => true
  | _ => false

/-- A caller goes away, or has waited too long. -/
def Action.withdraws : Action → Bool
  | .cancel _ | .timeout _ => true
  | _ => false

/-- Actions that bring no work: the clock, reports, and the API as long as no
    flow gets a weight below 1. -/
def Action.bringsNothing : Action → Bool
  | .tick _ | .deliver _ _ | .setPriority _ _ _ | .reportAccounting _ _ => true
  | .register reg => decide (1 ≤ reg.weight.asI64)
  | _ => false

/-- What goes on in a system to which nothing new is brought. -/
def draining : Duties Action where
  due := fun action => action.isDue = true
  counts := fun action => action.isDue = true ∨ action.withdraws = true
  idle := fun action => action.bringsNothing = true

/-- Every flow gains credit in every round in which it waits. -/
def System.Heavy (s : System) : Prop := ∀ f, 1 ≤ (s.flow f).truncWeight

/-- Nothing is left to do, and nothing is left behind. -/
structure Drained (cfg : Config) (arith : I64Arith) (s : System) : Prop where
  finished : ∀ a ∈ s.admissions, a.phase = .finished
  queues : ∀ f, s.inner.queue f = []
  cursor : s.inner.rrCursor = []
  permits : s.inner.availablePermits = s.inner.maxPermits
  depths : ∀ f, (s.flow f).depth = 0
  waitingQueue : s.waitingQueue = []
  parked : s.pc = .parked
  still : ∀ action, draining.counts action → nextSystem cfg arith s action = none

variable {cfg : Config} {arith : I64Arith} {s t : System} {action : Action} {event : Option Event}

/-- More than the number of phases an admission has still to go through. -/
def Phase.stepsLeft : Phase → Nat
  | .entered => 11
  | .atGate => 10
  | .inQueue _ .pushed none => 9
  | .inQueue _ .stamped none => 8
  | .inQueue _ (.polling _) none => 7
  | .inQueue _ .pushed (some _) => 6
  | .inQueue _ .stamped (some _) => 5
  | .inQueue _ (.polling _) (some _) => 4
  | .admitted _ => 3
  | .waking (some _) => 2
  | .waking none => 1
  | .unwinding _ => 1
  | .finished => 0

theorem PhaseMove.stepsLeft_lt {i : Nat} {before after : Phase}
    (move : PhaseMove s i action before after) : after.stepsLeft < before.stepsLeft := by
  cases move with
  | stamp | notify => rename_i slot; cases slot <;> simp [Phase.stepsLeft]
  | sent => rename_i stage _ _; cases stage <;> simp [Phase.stepsLeft]
  | _ => simp [Phase.stepsLeft]

def LoopPc.stepsLeft : LoopPc → Nat
  | .readCap => 3
  | .readState _ => 2
  | .select _ => 1
  | .parked | .send _ | .panicked _ => 0

namespace System

/-- What is left to do for the admissions: phases to go through, requests to be
    popped, a ticket to be sent. -/
def work (s : System) : Nat :=
  3 * (s.admissions.map fun a => a.phase.stepsLeft).sum + 2 * s.inner.pendingCount.toNat +
    if s.pc.holdsTicket then 1 else 0

/-- Wake-ups in store for the loop. -/
def wakeups (s : System) : Nat :=
  (if s.notified then 1 else 0) + (if s.seen ≠ s.snapshots.version then 1 else 0) +
    if s.monitorAlive then 1 else 0

/-- What the flows in the cursor lack to pay for their heads. -/
def shortfall (s : System) : Nat :=
  (Slots.total (fun f => max 0 (s.inner.headCost f - s.inner.credit f)) s.inner.rrCursor).toNat

def rank (s : System) : ℕ ×ₗ ℕ ×ₗ ℕ ×ₗ ℕ :=
  toLex (s.work, toLex (s.wakeups, toLex (s.shortfall, s.pc.stepsLeft)))

theorem rank_lt_of_work (less : t.work < s.work) : t.rank < s.rank :=
  Prod.Lex.toLex_lt_toLex.mpr (.inl less)

theorem rank_lt_of_wakeups (work : t.work = s.work) (less : t.wakeups < s.wakeups) :
    t.rank < s.rank :=
  Prod.Lex.toLex_lt_toLex.mpr (.inr ⟨work, Prod.Lex.toLex_lt_toLex.mpr (.inl less)⟩)

theorem rank_lt_of_loop (work : t.work = s.work) (wakeups : t.wakeups = s.wakeups)
    (less : t.shortfall < s.shortfall ∨
      t.shortfall = s.shortfall ∧ t.pc.stepsLeft < s.pc.stepsLeft) : t.rank < s.rank :=
  Prod.Lex.toLex_lt_toLex.mpr (.inr ⟨work, Prod.Lex.toLex_lt_toLex.mpr
    (.inr ⟨wakeups, Prod.Lex.toLex_lt_toLex.mpr less⟩)⟩)

/-- An admission that moves on has less left to do, even if its move is the push
    of a request. -/
theorem work_lt_of_move {i : Nat} {a : Admission} {before phase : Phase}
    (found : s.admissions[i]? = some a) (stands : a.phase = before)
    (move : PhaseMove s i action before phase)
    (admissions : t.admissions = s.admissions.set i { a with phase })
    (pending : t.inner.pendingCount ≤ s.inner.pendingCount + 1)
    (hand : t.pc.holdsTicket = true → s.pc.holdsTicket = true) : t.work < s.work := by
  have fewer := move.stepsLeft_lt
  rw [← stands] at fewer
  have moved := Slots.sum_set found { a with phase } fun b => b.phase.stepsLeft
  rw [← admissions] at moved
  have nonneg := pendingCount_nonneg s.inner
  have carried : (if t.pc.holdsTicket then 1 else 0) ≤ if s.pc.holdsTicket then 1 else 0 := by
    split
    · rw [if_pos (hand ‹_›)]
    · exact Nat.zero_le _
  unfold work
  dsimp only at moved
  omega

end System

theorem pendingCount_enqueue {inner : DrrState} (inv : RepInv inner) (f : FlowId) (tx : Nat)
    (enter : Instant) (workUnit : F64) :
    (inner.enqueue f tx enter workUnit).pendingCount = inner.pendingCount + 1 := by
  have others : ∀ g ∈ inner.rrCursor, g ≠ f →
      (((inner.enqueue f tx enter workUnit).queue g).length : Int) = (inner.queue g).length := by
    intro g _ other
    rw [DrrState.queue_enqueue, if_neg other]
  have own : (((inner.enqueue f tx enter workUnit).queue f).length : Int) =
      (inner.queue f).length + 1 := by
    rw [DrrState.queue_enqueue, if_pos rfl, List.length_append]
    rfl
  have joined : (inner.enqueue f tx enter workUnit).rrCursor = Cursor.join f inner.rrCursor := rfl
  unfold DrrState.pendingCount
  rw [joined, Cursor.join]
  split
  · rename_i member
    rw [Slots.total_update inv.nodup member others, own]
    omega
  · rename_i absent
    have empty : inner.queue f = [] := by
      by_contra waits
      exact absent (inv.mem_cursor_iff.mpr waits)
    have same : Slots.total (fun g => (((inner.enqueue f tx enter workUnit).queue g).length : Int))
        inner.rrCursor = Slots.total (fun g => ((inner.queue g).length : Int)) inner.rrCursor := by
      apply Slots.total_congr
      intro g member
      apply others g member
      rintro rfl
      exact absent member
    rw [Slots.total_append, same, Slots.total_cons, Slots.total_nil, own, empty]
    rfl

theorem pendingCount_dropGuard {inner : DrrState} (inv : RepInv inner) (f : FlowId)
    (pendingId : Option Nat) :
    (inner.dropGuard f pendingId).pendingCount ≤ inner.pendingCount := by
  have after := inv.dropGuard f pendingId
  have shorter : ∀ g, ((inner.dropGuard f pendingId).queue g).Sublist (inner.queue g) := by
    intro g
    rw [DrrState.queue_dropGuard]
    split
    · subst g
      exact DrrState.kept_sublist _ _
    · exact List.Sublist.refl _
  refine Slots.total_le_of_subset after.nodup ?_ ?_ fun _ _ => Int.natCast_nonneg _
  · intro g member
    rw [after.mem_cursor_iff] at member
    rw [inv.mem_cursor_iff]
    rintro empty
    have sub := shorter g
    rw [empty] at sub
    exact member (List.sublist_nil.mp sub)
  · intro g _
    exact_mod_cast (shorter g).length_le

theorem total_rotate {α : Type*} (g : α → Int) (c : List α) :
    Slots.total g (Cursor.rotate c) = Slots.total g c := by
  cases c with
  | nil => rfl
  | cons a rest =>
      rw [Cursor.rotate, Slots.total_append, Slots.total_cons, Slots.total_cons, Slots.total_nil]
      omega

theorem Barren.shortfall_lt {registry : FlowRegistry} {inner t : DrrState}
    (barren : Barren registry inner t) (gains : ∀ f ∈ inner.rrCursor, Gains registry inner f)
    (some_ : inner.rrCursor ≠ []) :
    (Slots.total (fun f => max 0 (t.headCost f - t.credit f)) t.rrCursor).toNat <
      (Slots.total (fun f => max 0 (inner.headCost f - inner.credit f)) inner.rrCursor).toNat := by
  have nearer : ∀ f ∈ inner.rrCursor, max 0 (t.headCost f - t.credit f) <
      max 0 (inner.headCost f - inner.credit f) := by
    intro f member
    have credit := barren.credit f (gains f member)
    have short := barren.short f (gains f member)
    have positive := (gains f member).2
    rw [barren.headCost]
    omega
  rw [barren.cursor, total_rotate]
  have less := Slots.total_lt nearer some_
  have nonneg : 0 ≤ Slots.total (fun f => max 0 (t.headCost f - t.credit f)) inner.rrCursor :=
    Slots.total_nonneg fun _ _ => le_max_left _ _
  omega

theorem System.work_afterRound (s : System) (r : Round) : (s.afterRound r).work =
    3 * (s.admissions.map fun a => a.phase.stepsLeft).sum + 2 * r.state.pendingCount.toNat +
      if r.selection.isSome then 1 else 0 := by
  unfold System.work
  rw [System.afterRound_holdsTicket]
  rfl

/-- A round takes a request out of the queues, or brings the cursor nearer, or
    sends the loop to sleep. -/
theorem System.rank_round (inv : SystemInv cfg s) (heavy : s.Heavy) (exact : arith = .exact)
    {cap : Nat} {r : Round} (pc : s.pc = .select cap)
    (spec : RoundSpec (s.selectEnv cfg arith cap) s.registry s.inner r) :
    (s.afterRound r).rank < s.rank := by
  have before : s.pc.holdsTicket = false := by simp [pc, LoopPc.holdsTicket]
  cases spec with
  | atCap | nobody =>
      refine System.rank_lt_of_loop ?_ rfl (.inr ⟨rfl, ?_⟩)
      · rw [System.work_afterRound, System.work, before]
        rfl
      · simp [System.afterRound, pc, LoopPc.stepsLeft]
  | forced _ _ served | regular _ _ _ _ served =>
      have count := pendingCount_served inv.repInv served
      have left := pendingCount_nonneg _ |>.trans_eq (eq_sub_of_add_eq count)
      apply System.rank_lt_of_work
      rw [System.work_afterRound, System.work, before]
      simp only [Option.isSome_some, if_true, Bool.false_eq_true, if_false]
      omega
  | @barren credited deficit' under some_ calm ineligible flag deficit =>
      have gains : ∀ f ∈ s.inner.rrCursor, Gains s.registry s.inner f := by
        intro f member
        have weight := heavy f
        exact ⟨member, by simp only [System.flow] at weight; omega⟩
      have spec : RoundSpec (s.selectEnv cfg arith cap) s.registry s.inner
          ⟨none, credited, none,
            { s.inner with deficit := deficit', rrCursor := Cursor.rotate s.inner.rrCursor },
            s.registry⟩ :=
        .barren under some_ calm ineligible flag deficit
      obtain ⟨barren, -, count, -⟩ := barren_of_spec exact inv.repInv under some_ spec rfl
      refine System.rank_lt_of_loop ?_ rfl (.inl (barren.shortfall_lt gains some_))
      rw [System.work_afterRound, System.work, before, count]
      rfl

/-- Whatever a task does in a system to which nothing is brought lowers the rank. -/
theorem Step.rank_lt (step : Step cfg arith s action event t) (inv : SystemInv cfg s)
    (heavy : s.Heavy) (exact : arith = .exact) (counts : draining.counts action) :
    t.rank < s.rank := by
  cases step with
  | createGuard found phase =>
      exact System.rank_lt_of_work
        (System.work_lt_of_move found phase .createGuard rfl (Int.le_add_one le_rfl) id)
  | @enqueue i a found phase =>
      exact System.rank_lt_of_work (System.work_lt_of_move found phase .enqueue rfl
        (pendingCount_enqueue inv.repInv _ _ _ _).le id)
  | stamp found phase =>
      exact System.rank_lt_of_work
        (System.work_lt_of_move found phase .stamp rfl (Int.le_add_one le_rfl) id)
  | notify found phase =>
      exact System.rank_lt_of_work
        (System.work_lt_of_move found phase .notify rfl (Int.le_add_one le_rfl) id)
  | receive found phase =>
      exact System.rank_lt_of_work
        (System.work_lt_of_move found phase .receive rfl (Int.le_add_one le_rfl) id)
  | leaveGate found phase =>
      exact System.rank_lt_of_work
        (System.work_lt_of_move found phase .leaveGate rfl (Int.le_add_one le_rfl) id)
  | @closeReceiver _ i a pendingId since slot which found phase =>
      cases slot with
      | none =>
          exact System.rank_lt_of_work (System.work_lt_of_move found phase (.closeEmpty which) rfl
            (Int.le_add_one le_rfl) id)
      | some ticket =>
          exact System.rank_lt_of_work (System.work_lt_of_move found phase (.closeFull which) rfl
            (Int.le_add_one le_rfl) id)
  | dropGuard found phase =>
      exact System.rank_lt_of_work (System.work_lt_of_move found phase .dropGuard rfl
        (Int.le_add_one (pendingCount_dropGuard inv.repInv _ _)) id)
  | dropTicket found phase =>
      exact System.rank_lt_of_work
        (System.work_lt_of_move found phase .dropTicket rfl (Int.le_add_one le_rfl) id)
  | @wake i a pendingId found phase =>
      cases pendingId with
      | none =>
          exact System.rank_lt_of_work
            (System.work_lt_of_move found phase .wakeLast rfl (Int.le_add_one le_rfl) id)
      | some id_ =>
          exact System.rank_lt_of_work
            (System.work_lt_of_move found phase .wakeGuard rfl (Int.le_add_one le_rfl) id)
  | sent pc found phase =>
      exact System.rank_lt_of_work (System.work_lt_of_move found phase (.sent pc rfl) rfl
        (Int.le_add_one le_rfl) (by simp [System.deliverTicket, LoopPc.holdsTicket]))
  | sendFailed pc found gone =>
      apply System.rank_lt_of_work
      have same : s.failedSend.inner.pendingCount = s.inner.pendingCount := rfl
      simp only [System.work, same, pc]
      simp [System.failedSend, LoopPc.holdsTicket]
  | wakeNotified pc notified =>
      apply System.rank_lt_of_wakeups
      · simp [System.work, pc, LoopPc.holdsTicket]
      · simp [System.wakeups, notified]
  | wakeChanged pc alive unseen =>
      apply System.rank_lt_of_wakeups
      · simp [System.work, pc, LoopPc.holdsTicket]
      · simp [System.wakeups, unseen]
  | wakeClosed pc alive seen closed =>
      apply System.rank_lt_of_wakeups
      · simp [System.work, pc, LoopPc.holdsTicket]
      · simp [System.wakeups, alive]
  | readCap pc =>
      refine System.rank_lt_of_loop ?_ rfl (.inr ⟨rfl, ?_⟩)
      · simp [System.work, pc, LoopPc.holdsTicket]
      · simp [pc, LoopPc.stepsLeft]
  | park pc idle =>
      refine System.rank_lt_of_loop ?_ rfl (.inr ⟨rfl, ?_⟩)
      · simp [System.work, pc, LoopPc.holdsTicket]
      · simp [pc, LoopPc.stepsLeft]
  | proceed pc under some_ =>
      refine System.rank_lt_of_loop ?_ rfl (.inr ⟨rfl, ?_⟩)
      · simp [System.work, pc, LoopPc.holdsTicket]
      · simp [pc, LoopPc.stepsLeft]
  | round pc spec => exact System.rank_round inv heavy exact pc spec
  | rejected | arrive | publish | closeMonitor | tick | register | setPriority | reportAccounting
  | deliver => simp [draining, Action.isDue, Action.withdraws] at counts

theorem Step.rank_eq_of_idle (step : Step cfg arith s action event t)
    (idle : draining.idle action) : t.rank = s.rank := by
  cases step with
  | tick | register | setPriority | reportAccounting | deliver => rfl
  | closeReceiver which =>
      rcases which with rfl | rfl <;> simp [draining, Action.bringsNothing] at idle
  | _ => simp [draining, Action.bringsNothing] at idle

/-- The request of every admission that still waits for its ticket. -/
def System.Represented (s : System) : Prop :=
  ∀ (i : Nat) (a : Admission) (pendingId : Nat) (stage : Stage), s.admissions[i]? = some a →
    a.phase = .inQueue pendingId stage none →
      (∃ p ∈ s.inner.queue a.flowId, p.tx = i) ∨ ∃ sel, s.pc = .send sel ∧ sel.pending.tx = i

namespace System.Represented

theorem start (cfg : Config) : (System.start cfg).Represented := by
  intro i a pendingId stage found
  simp [System.start] at found

/-- A step that touches neither requests nor admissions, while the loop has no
    request in its hands. -/
theorem frame (rep : s.Represented) (queue : t.inner.queue = s.inner.queue)
    (admissions : t.admissions = s.admissions) (pc : ∀ sel, s.pc = .send sel → t.pc = .send sel) :
    t.Represented := by
  intro i a pendingId stage found phase
  rw [admissions] at found
  rw [queue]
  exact (rep i a pendingId stage found phase).imp id fun ⟨sel, hand, mine⟩ => ⟨sel, pc sel hand, mine⟩

theorem move (rep : s.Represented) {j : Nat} {b : Admission} {q : Phase}
    (foundB : s.admissions[j]? = some b)
    (admissions : t.admissions = s.admissions.set j { b with phase := q })
    (here : ∀ pendingId stage, q = .inQueue pendingId stage none →
      (∃ p ∈ t.inner.queue b.flowId, p.tx = j) ∨ ∃ stage, b.phase = .inQueue pendingId stage none)
    (queue : ∀ f, ∀ p ∈ s.inner.queue f,
      p ∈ t.inner.queue f ∨ p.tx = j ∧ ∀ pendingId stage, q ≠ .inQueue pendingId stage none)
    (pc : ∀ sel, s.pc = .send sel → t.pc = .send sel ∨
      sel.pending.tx = j ∧ ∀ pendingId stage, q ≠ .inQueue pendingId stage none) :
    t.Represented := by
  intro i a pendingId stage found waits
  rw [admissions, Slots.getElem?_set foundB] at found
  -- Whoever waited before is still represented, or is the one who no longer waits.
  have kept : ∀ (c : Admission) stage, s.admissions[i]? = some c → c.flowId = a.flowId →
      c.phase = .inQueue pendingId stage none →
      (i = j → ∃ pendingId stage, q = .inQueue pendingId stage none) →
      (∃ p ∈ t.inner.queue a.flowId, p.tx = i) ∨ ∃ sel, t.pc = .send sel ∧ sel.pending.tx = i := by
    intro c stage old flow waited still
    rcases rep i c pendingId stage old waited with ⟨p, queued, mine⟩ | ⟨sel, hand, mine⟩
    · rw [flow] at queued
      rcases queue _ p queued with stays | ⟨atJ, gone⟩
      · exact .inl ⟨p, stays, mine⟩
      · obtain ⟨id, st, waits⟩ := still (mine.symm.trans atJ)
        exact absurd waits (gone id st)
    · rcases pc sel hand with stays | ⟨atJ, gone⟩
      · exact .inr ⟨sel, stays, mine⟩
      · obtain ⟨id, st, waits⟩ := still (mine.symm.trans atJ)
        exact absurd waits (gone id st)
  split at found
  · rename_i same
    obtain rfl := Option.some.inj found
    subst i
    rcases here pendingId stage waits with queued | ⟨before, waited⟩
    · exact .inl queued
    · exact kept b before foundB rfl waited fun _ => ⟨pendingId, stage, waits⟩
  · rename_i other
    exact kept a stage found rfl waits fun same => absurd same other

theorem next (rep : s.Represented) (links : Links s)
    (step : Step cfg arith s action event t) : t.Represented := by
  cases step with
  | arrive =>
      intro i a pendingId stage found phase
      simp only [System.arrive, List.getElem?_append] at found
      split at found
      · exact rep i a pendingId stage found phase
      · obtain rfl := List.mem_singleton.mp (List.mem_of_getElem? found)
        simp at phase
  | createGuard found phase =>
      exact rep.move found rfl (by simp) (fun _ _ queued => .inl queued) fun _ hand => .inl hand
  | @enqueue i a found phase =>
      have queue : ∀ f, (s.enqueue i a).inner.queue f = _ := DrrState.queue_enqueue _ _ _ _ _
      refine rep.move found rfl ?_ ?_ fun _ hand => .inl hand
      · intro _ _ _
        left
        rw [queue, if_pos rfl]
        exact ⟨_, List.mem_append_right _ (List.mem_singleton.mpr rfl), rfl⟩
      · intro f p queued
        left
        rw [queue]
        split
        · subst f
          exact List.mem_append_left _ queued
        · exact queued
  | @stamp i a pendingId slot found phase =>
      refine rep.move found rfl ?_ (fun _ _ queued => .inl queued) fun _ hand => .inl hand
      rintro id stage waits
      simp only [Phase.inQueue.injEq] at waits
      obtain ⟨rfl, -, rfl⟩ := waits
      exact .inr ⟨_, phase⟩
  | @notify i a pendingId slot found phase =>
      refine rep.move found rfl ?_ (fun _ _ queued => .inl queued) fun _ hand => .inl hand
      rintro id stage waits
      simp only [Phase.inQueue.injEq] at waits
      obtain ⟨rfl, -, rfl⟩ := waits
      exact .inr ⟨_, phase⟩
  | receive found phase =>
      exact rep.move found rfl (by simp) (fun _ _ queued => .inl queued) fun _ hand => .inl hand
  | leaveGate found phase =>
      exact rep.move found rfl (by simp) (fun _ _ queued => .inl queued) fun _ hand => .inl hand
  | @closeReceiver _ i a pendingId since slot _ found phase =>
      cases slot with
      | none =>
          exact rep.move (t := s.closeReceiver i a pendingId none) (q := .unwinding (some pendingId))
            found rfl (by simp) (fun _ _ queued => .inl queued) fun _ hand => .inl hand
      | some ticket =>
          exact rep.move (t := s.closeReceiver i a pendingId (some ticket))
            (q := .waking (some pendingId))
            found rfl (by simp) (fun _ _ queued => .inl queued) fun _ hand => .inl hand
  | @dropGuard i a pendingId found phase =>
      refine rep.move found rfl (by simp) ?_ fun _ hand => .inl hand
      intro f p queued
      rw [links.queue_dropGuard found phase]
      by_cases mine : p.tx = i
      · exact .inr ⟨mine, by simp⟩
      · exact .inl (List.mem_filter.mpr ⟨queued, by simpa using mine⟩)
  | dropTicket found phase =>
      exact rep.move found rfl (by simp) (fun _ _ queued => .inl queued) fun _ hand => .inl hand
  | @wake i a pendingId found phase =>
      cases pendingId with
      | none =>
          exact rep.move (t := s.wake i a none) (q := .finished) found rfl (by simp)
            (fun _ _ queued => .inl queued) fun _ hand => .inl hand
      | some id_ =>
          exact rep.move (t := s.wake i a (some id_)) (q := .unwinding (some id_)) found rfl (by simp)
            (fun _ _ queued => .inl queued) fun _ hand => .inl hand
  | @round cap r pc spec =>
      cases selected : r.selection with
      | none =>
          refine rep.frame ?_ rfl (by simp [pc])
          funext f
          simp only [System.afterRound, DrrState.queue, (spec.waiting_eq selected).1]
      | some selection =>
          -- The popped request is in the hands of the loop, all others are still queued.
          obtain ⟨-, rest, served⟩ := spec.served selected
          intro i a pendingId stage found phase
          rcases rep i a pendingId stage found phase with ⟨p, queued, mine⟩ | ⟨sel, hand, -⟩
          · by_cases same : a.flowId = selection.flowId
            · rw [same, served.head] at queued
              rcases List.mem_cons.mp queued with rfl | later
              · exact .inr ⟨selection, by simp [System.afterRound, selected], mine⟩
              · refine .inl ⟨p, ?_, mine⟩
                change p ∈ r.state.queue a.flowId
                rw [served.queue, if_pos same]
                exact later
            · refine .inl ⟨p, ?_, mine⟩
              change p ∈ r.state.queue a.flowId
              rw [served.queue, if_neg same]
              exact queued
          · simp [pc] at hand
  | @sent sel a pendingId stage pc found phase =>
      refine rep.move found rfl (by simp) (fun _ _ queued => .inl queued) ?_
      intro sel' hand
      rw [pc, LoopPc.send.injEq] at hand
      exact .inr ⟨hand ▸ rfl, by simp⟩
  | @sendFailed sel b pc found gone =>
      intro i a pendingId stage foundA phase
      change s.admissions[i]? = some a at foundA
      rcases rep i a pendingId stage foundA phase with queued | ⟨sel', hand, mine⟩
      · exact .inl queued
      · rw [pc, LoopPc.send.injEq] at hand
        subst sel'
        rw [mine, foundA, Option.some.injEq] at found
        subst b
        rcases gone with ⟨id, left⟩ | left <;> simp [phase] at left
  | wakeNotified pc | wakeChanged pc | wakeClosed pc | readCap pc | park pc | proceed pc =>
      exact rep.frame rfl rfl (by simp [pc])
  | _ => exact rep.frame rfl rfl fun _ hand => hand

end System.Represented

/-- The loop stops watching the monitor only after its last snapshot. -/
def System.WatchesToTheEnd (s : System) : Prop :=
  s.monitorAlive = false → s.snapshots.closed = true ∧ s.seen = s.snapshots.version

theorem System.WatchesToTheEnd.next (ends : s.WatchesToTheEnd)
    (step : Step cfg arith s action event t) : t.WatchesToTheEnd := by
  cases step with
  | closeReceiver =>
      unfold System.closeReceiver
      split <;> exact ends
  | wakeChanged _ alive => exact fun dead => Bool.noConfusion (alive.symm.trans dead)
  | wakeClosed _ _ seen closed => exact fun _ => ⟨closed, seen⟩
  | publish live => exact fun dead => Bool.noConfusion (live.symm.trans (ends dead).1)
  | closeMonitor => exact fun dead => ⟨rfl, (ends dead).2⟩
  | _ => exact ends

/-- An action that gives no flow a weight below 1. -/
def Action.KeepsHeavy (action : Action) : Prop :=
  ∀ reg, action = .register reg → 1 ≤ reg.weight.asI64

theorem System.Heavy.next (heavy : s.Heavy) (step : Step cfg arith s action event t)
    (keeps : action.KeepsHeavy) : t.Heavy := by
  intro f
  by_cases registers : ∃ reg, action = .register reg
  · obtain ⟨reg, rfl⟩ := registers
    have weight := keeps reg rfl
    cases step with
    | closeReceiver which => simp at which
    | register =>
        have held := heavy f
        simp only [System.flow, FlowRegistry.getOrCreate_register] at held ⊢
        split
        · exact weight
        · exact held
  · have same := step.weight_eq (fun reg which => registers ⟨reg, which⟩) f
    simp only [Flow.truncWeight, same]
    exact heavy f

theorem Wakes.next_heavy (wakes : Wakes cfg s) (inv : SystemInv cfg s) (heavy : s.Heavy)
    (step : Step cfg arith s action event t) : Wakes cfg t := by
  by_cases registers : ∃ reg, action = .register reg
  · obtain ⟨reg, rfl⟩ := registers
    cases step with
    | closeReceiver which => simp at which
    | register =>
        refine ⟨wakes.seen_le, wakes.fresh, ?_⟩
        intro asleep empty current settled
        cases wakes.parked asleep empty current settled with
        | inl full => exact .inl full
        | inr light =>
            right
            intro f waits
            have weight := heavy f
            have small := light f waits
            omega
  · refine wakes.next inv step fun f => ?_
    exact congrArg F64.asI64 (step.weight_eq (fun reg which => registers ⟨reg, which⟩) f)

/-- What a system keeps while it drains. -/
structure Draining (cfg : Config) (arith : I64Arith) (s : System) : Prop where
  reachable : (scheduler cfg arith).Reachable s
  wakes : Wakes cfg s
  represented : s.Represented
  watches : s.WatchesToTheEnd
  heavy : s.Heavy

namespace Draining

theorem next (held : Draining cfg arith s) (keeps : action.KeepsHeavy)
    (h : nextSystem cfg arith s action = some (t, event)) : Draining cfg arith t := by
  have inv := SystemInv.reachable held.reachable
  have step := inv.step_of_next h
  exact
    { reachable := held.reachable.step h
      wakes := held.wakes.next_heavy inv held.heavy step
      represented := held.represented.next (Links.reachable held.reachable) step
      watches := held.watches.next step
      heavy := held.heavy.next step keeps }

theorem start (cfg : Config) (arith : I64Arith) (heavy : 1 ≤ cfg.flows.defaultWeight.asI64) :
    Draining cfg arith (System.start cfg) where
  reachable := .start _
  wakes := .start cfg
  represented := .start cfg
  watches := fun dead => Bool.noConfusion dead
  heavy := fun _ => heavy

theorem of_run (heavy : 1 ≤ cfg.flows.defaultWeight.asI64) {ts}
    (run : (scheduler cfg arith).Exec (System.start cfg) ts s)
    (keeps : ∀ tr ∈ ts, tr.action.KeepsHeavy) : Draining cfg arith s := by
  refine run.invariant_within (I := Draining cfg arith) (C := fun tr => tr.action.KeepsHeavy) keeps
    (start cfg arith heavy) ?_
  intro v a w e held keeps next
  exact held.next keeps next

theorem exists_due_move (cfg : Config) (arith : I64Arith) {i : Nat} {a : Admission}
    (found : s.admissions[i]? = some a) :
    a.phase = .finished ∨ (∃ pendingId since, a.phase = .inQueue pendingId (.polling since) none) ∨
      ∃ action r, draining.due action ∧ nextSystem cfg arith s action = some r := by
  have moves : ∀ (action : Action) r, action.isDue = true →
      nextSystem cfg arith s action = some r →
      ∃ action r, draining.due action ∧ nextSystem cfg arith s action = some r :=
    fun action r due next => ⟨action, r, due, next⟩
  cases phase : a.phase with
  | entered =>
      exact .inr (.inr (moves (.createGuard i) (s.createGuard i a, none) rfl
        (by simp [nextSystem, found, phase])))
  | atGate => exact .inr (.inr (moves (.enqueue i) _ rfl (by simp [nextSystem, found, phase]; rfl)))
  | inQueue pendingId stage slot =>
      cases stage with
      | pushed =>
          exact .inr (.inr (moves (.stamp i) (s.stamp i a pendingId slot, none) rfl
            (by simp [nextSystem, found, phase])))
      | stamped =>
          exact .inr (.inr (moves (.notify i) (s.notify i a pendingId slot, none) rfl
            (by simp [nextSystem, found, phase])))
      | polling since =>
          cases slot with
          | none => exact .inr (.inl ⟨pendingId, since, rfl⟩)
          | some ticket =>
              exact .inr (.inr (moves (.receive i) (s.receive i a ticket, none) rfl
                (by simp [nextSystem, found, phase])))
  | unwinding pendingId =>
      exact .inr (.inr (moves (.dropGuard i) _ rfl (by simp [nextSystem, found, phase]; rfl)))
  | admitted ticket =>
      exact .inr (.inr (moves (.dropTicket i) (s.dropTicket i a ticket, none) rfl
        (by simp [nextSystem, found, phase])))
  | waking pendingId =>
      exact .inr (.inr (moves (.wake i) (s.wake i a pendingId, none) rfl
        (by simp [nextSystem, found, phase])))
  | finished => exact .inl rfl

theorem exists_due_loop (held : Draining cfg arith s) (awake : s.pc ≠ .parked) :
    ∃ action r, draining.due action ∧ nextSystem cfg arith s action = some r := by
  have inv := SystemInv.reachable held.reachable
  cases pc : s.pc with
  | parked => exact absurd pc awake
  | readCap =>
      exact ⟨.readCap, ({ s with pc := .readState (s.effectiveCap cfg) },
        some (.capRead s.pressure (s.effectiveCap cfg))), rfl, by simp only [nextSystem, pc, if_true]⟩
  | readState cap =>
      by_cases idle : s.inner.outstanding ≥ cap ∨ s.inner.rrCursor.isEmpty = true
      · exact ⟨.readState, ({ s with pc := .parked }, none), rfl,
          by simp only [nextSystem, pc, inv.checkedSub_permits, idle, if_true]⟩
      · exact ⟨.readState, ({ s with pc := .select cap }, none), rfl,
          by simp only [nextSystem, pc, inv.checkedSub_permits, idle, if_false]⟩
  | select cap =>
      obtain ⟨r, returned, -⟩ := inv.trySelect_ok arith pc
      exact ⟨.trySelect, _, rfl, nextSystem_trySelect pc returned⟩
  | send selection =>
      have sends : ∃ t, nextSystem cfg arith s .send = some (t, none) :=
        (Links.reachable held.reachable).send_enabled pc
      obtain ⟨t, next⟩ := sends
      exact ⟨.send, _, rfl, next⟩
  | panicked panic => exact absurd pc (inv.running panic)

/-- With nobody under way, a loop that sleeps with nothing to wake it has granted
    every request. -/
theorem drained_of_idle (valid : cfg.validate = .ok ()) (held : Draining cfg arith s)
    (waiting : ∀ a ∈ s.admissions, a.phase = .finished ∨
      ∃ pendingId since, a.phase = .inQueue pendingId (.polling since) none)
    (parked : s.pc = .parked)
    (idle : ∀ action, action.isDue = true → nextSystem cfg arith s action = none) :
    Drained cfg arith s := by
  have inv := SystemInv.reachable held.reachable
  have unnotified : s.notified = false := by
    have asleep := idle .wakeNotified rfl
    simpa [nextSystem, parked] using asleep
  have current : s.seen = s.snapshots.version := by
    cases alive : s.monitorAlive with
    | false => exact (held.watches alive).2
    | true =>
        have asleep := idle .wakeChanged rfl
        simpa [nextSystem, parked, alive] using asleep
  have settled : s.Settled := by
    intro a member
    rcases waiting a member with done | ⟨pendingId, since, waits⟩
    · simp [done, Phase.owesNotify]
    · simp [waits, Phase.owesNotify]
  have none_out : s.inner.outstanding = 0 := by
    rw [inv.outstanding_eq, System.ticketsOut, parked]
    simp only [LoopPc.holdsTicket, Bool.false_eq_true, if_false, Nat.zero_add, List.countP_eq_zero]
    intro a member
    rcases waiting a member with done | ⟨pendingId, since, waits⟩
    · simp [done, Phase.holdsTicket]
    · simp [waits, Phase.holdsTicket]
  have queues : ∀ f, s.inner.queue f = [] := by
    cases held.wakes.parked parked unnotified current settled with
    | inl full =>
        have room := KvPressure.effectiveMax_pos valid s.pressure
        rw [none_out, System.effectiveCap] at full
        omega
    | inr light =>
        intro f
        by_contra waits
        have small := light f waits
        have weight := held.heavy f
        omega
  have finished : ∀ a ∈ s.admissions, a.phase = .finished := by
    intro a member
    obtain ⟨i, bound, rfl⟩ := List.getElem_of_mem member
    rcases waiting _ member with done | ⟨pendingId, since, waits⟩
    · exact done
    · rcases held.represented i _ pendingId _ (List.getElem?_eq_getElem bound) waits with
        ⟨p, queued, -⟩ | ⟨sel, hand, -⟩
      · simp [queues] at queued
      · simp [parked] at hand
  have counted := GuardsCounted.reachable held.reachable
  have noGuard : s.guardFlows = [] := by
    rw [System.guardFlows, List.filterMap_eq_nil_iff]
    intro a member
    simp [Admission.guard, finished a member, GuardState.flow?]
  exact
    { finished
      queues
      cursor := by
        rw [List.eq_nil_iff_forall_not_mem]
        intro f member
        exact inv.repInv.mem_cursor_iff.mp member (queues f)
      permits := by
        have permits := inv.permits
        unfold DrrState.outstanding at none_out
        omega
      depths := by
        intro f
        rw [counted.depth, System.liveGuards, noGuard]
        rfl
      waitingQueue := by
        have perm := counted.queue
        rw [noGuard] at perm
        exact perm.eq_nil
      parked
      still := by
        intro action counts
        rcases counts with due | withdraws
        · exact idle action due
        · cases action with
          | cancel i | timeout i =>
              simp only [nextSystem]
              cases found : s.admissions[i]? with
              | none => rfl
              | some a => simp [finished a (List.mem_of_getElem? found)]
          | _ => simp [Action.withdraws] at withdraws }

/-- A system that has not run dry has something to do. -/
theorem due (valid : cfg.validate = .ok ()) (held : Draining cfg arith s) :
    Drained cfg arith s ∨
      ∃ action r, draining.due action ∧ (scheduler cfg arith).next s action = some r := by
  by_cases busy : ∃ action r, draining.due action ∧ nextSystem cfg arith s action = some r
  · exact .inr busy
  · left
    have idle : ∀ action, action.isDue = true → nextSystem cfg arith s action = none := by
      intro action due
      cases next : nextSystem cfg arith s action with
      | none => rfl
      | some r => exact absurd ⟨action, r, due, next⟩ busy
    refine held.drained_of_idle valid ?_ ?_ idle
    · intro a member
      obtain ⟨i, found⟩ := List.getElem?_of_mem member
      rcases exists_due_move cfg arith found with done | waits | moves
      · exact .inl done
      · exact .inr waits
      · exact absurd moves busy
    · by_contra awake
      exact busy (held.exists_due_loop awake)

end Draining

theorem keepsHeavy_of_counts (counts : draining.counts action) : action.KeepsHeavy := by
  rintro reg rfl
  simp [draining, Action.isDue, Action.withdraws] at counts

theorem keepsHeavy_of_idle (idle : draining.idle action) : action.KeepsHeavy := by
  rintro reg rfl
  simpa [draining, Action.bringsNothing] using idle

end TinyLlb
