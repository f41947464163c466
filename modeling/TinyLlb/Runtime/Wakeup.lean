import TinyLlb.Runtime.Permits

/-! # No wake-up is lost

The loop goes to sleep on a cap and a state that it read at different moments.
Every operation that could give it something to do ends with `notify_one`, and a
stored notification outlives the loop's own steps. So once the operations under
way have made their call, a sleeping loop with nothing stored and no snapshot to
look at has nothing to grant.
-/

namespace TinyLlb

variable {cfg : Config} {arith : I64Arith} {s s' : System} {action : Action} {event : Option Event}

/-- The admission has changed the state and not called `notify_one` yet. -/
def Phase.owesNotify : Phase → Bool
  | .inQueue _ .pushed _ => true
  | .inQueue _ .stamped _ => true
  | .waking _ => true
  | _ => false

/-- No enqueue and no ticket drop is half done. -/
def System.Settled (s : System) : Prop := ∀ a ∈ s.admissions, a.phase.owesNotify = false

/-- The cap is used up, or nobody who waits has a weight that would ever give it
    credit. -/
def System.Blocked (cfg : Config) (s : System) : Prop :=
  s.effectiveCap cfg ≤ s.inner.outstanding ∨
    ∀ f, s.inner.queue f ≠ [] → (s.flow f).truncWeight < 1

/-- What a sleeping loop can rely on. -/
structure Wakes (cfg : Config) (s : System) : Prop where
  seen_le : s.seen ≤ s.snapshots.version
  fresh : s.seen = s.snapshots.version → ∀ cap ∈ s.pc.cap?, cap = s.effectiveCap cfg
  parked : s.pc = .parked → s.notified = false → s.seen = s.snapshots.version → s.Settled →
    s.Blocked cfg

namespace System

theorem Settled.of_set {i : Nat} {a : Admission} {phase : Phase}
    (found : s.admissions[i]? = some a) (paid : a.phase.owesNotify = false)
    (same : s'.admissions = s.admissions.set i { a with phase }) (settled : s'.Settled) :
    s.Settled := by
  intro b member
  obtain ⟨j, bound, rfl⟩ := List.getElem_of_mem member
  have rows := Slots.getElem?_set found { a with phase } j
  by_cases here : j = i
  · subst j
    rw [List.getElem?_eq_getElem bound, Option.some.injEq] at found
    rw [found]
    exact paid
  · rw [if_neg here, List.getElem?_eq_getElem bound, ← same] at rows
    exact settled _ (List.mem_of_getElem? rows)

theorem not_settled (s' : System) {i : Nat} {a : Admission} (found : s.admissions[i]? = some a)
    (phase : Phase) (owes : phase.owesNotify = true)
    (same : s'.admissions = s.admissions.set i { a with phase }) : ¬ s'.Settled := by
  intro settled
  have row := Slots.getElem?_set found { a with phase } i
  rw [if_pos rfl, ← same] at row
  have paid := settled _ (List.mem_of_getElem? row)
  simp [owes] at paid

theorem Blocked.mono (blocked : s.Blocked cfg) (snapshots : s'.snapshots = s.snapshots)
    (outstanding : s.inner.outstanding ≤ s'.inner.outstanding)
    (waiters : ∀ f, s'.inner.queue f ≠ [] → s.inner.queue f ≠ [])
    (weights : ∀ f, (s'.flow f).truncWeight = (s.flow f).truncWeight) : s'.Blocked cfg := by
  cases blocked with
  | inl full =>
      refine .inl (le_trans (le_of_eq ?_) (full.trans outstanding))
      simp only [effectiveCap, pressure, snapshots]
  | inr light =>
      right
      intro f waits
      rw [weights]
      exact light f (waiters f waits)

end System

namespace Wakes

open TinyLlb.System

theorem start (cfg : Config) : Wakes cfg (System.start cfg) where
  seen_le := le_rfl
  fresh := by
    intro _ cap holds
    simp [System.start, LoopPc.cap?] at holds
  parked := by
    intro _ _ _ _
    right
    intro f waits
    exact absurd rfl waits

theorem frame (wakes : Wakes cfg s) (pc : s'.pc = s.pc) (notified : s'.notified = s.notified)
    (seen : s'.seen = s.seen) (snapshots : s'.snapshots = s.snapshots)
    (settled : s'.Settled → s.Settled)
    (outstanding : s'.Settled → s.inner.outstanding ≤ s'.inner.outstanding)
    (waiters : s'.Settled → ∀ f, s'.inner.queue f ≠ [] → s.inner.queue f ≠ [])
    (weights : ∀ f, (s'.flow f).truncWeight = (s.flow f).truncWeight) : Wakes cfg s' where
  seen_le := by
    rw [seen, snapshots]
    exact wakes.seen_le
  fresh := by
    rw [seen, snapshots, pc]
    intro current cap holds
    have read := wakes.fresh current cap holds
    simpa only [effectiveCap, pressure, snapshots] using read
  parked := by
    rw [pc, notified, seen, snapshots]
    intro asleep empty current quiet
    exact (wakes.parked asleep empty current (settled quiet)).mono snapshots (outstanding quiet)
      (waiters quiet) weights

theorem awake (pc : s'.pc ≠ .parked) (cap : s'.pc.cap? = none)
    (seen : s'.seen ≤ s'.snapshots.version) : Wakes cfg s' where
  seen_le := seen
  fresh := by
    intro _ c holds
    simp [cap] at holds
  parked := fun asleep => absurd asleep pc

theorem round (wakes : Wakes cfg s) (inv : RepInv s.inner) {cap : Nat} {r : Round}
    (pc : s.pc = .select cap)
    (spec : RoundSpec (s.selectEnv cfg arith cap) s.registry s.inner r)
    (weights : ∀ f, ((s.afterRound r).flow f).truncWeight = (s.flow f).truncWeight) :
    Wakes cfg (s.afterRound r) := by
  have current : s.seen = s.snapshots.version → cap = s.effectiveCap cfg := by
    intro seen
    exact wakes.fresh seen cap (by simp [pc, LoopPc.cap?])
  refine ⟨wakes.seen_le, ?_, ?_⟩
  · intro _ c holds
    simp [afterRound_cap?] at holds
  · -- The loop goes to sleep in the two early returns and when nobody was credited.
    intro asleep _ seen _
    have effective := current seen
    cases spec with
    | atCap full =>
        left
        change s.effectiveCap cfg ≤ s.inner.outstanding
        rw [← effective]
        exact full
    | nobody _ nobody =>
        right
        intro f waits
        have member := inv.mem_cursor_iff.mpr waits
        simp [nobody] at member
    | forced | regular => simp [afterRound] at asleep
    | @barren credited deficit _ _ _ _ flag =>
        right
        intro f waits
        have idle : credited = false := by
          cases credited with
          | true => simp [afterRound] at asleep
          | false => rfl
        have member : f ∈ s.inner.rrCursor := inv.mem_cursor_iff.mpr waits
        rw [weights]
        by_contra heavy
        have positive : 0 < (s.registry.getOrCreate f).truncWeight := by
          simp only [System.flow] at heavy
          omega
        have credited := flag.mpr ⟨f, member, positive⟩
        simp [idle] at credited

theorem next (wakes : Wakes cfg s) (inv : SystemInv cfg s) (step : Step cfg arith s action event s')
    (weights : ∀ f, (s'.flow f).truncWeight = (s.flow f).truncWeight) : Wakes cfg s' := by
  cases step with
  | arrive =>
      refine wakes.frame rfl rfl rfl rfl ?_ (fun _ => le_rfl) (fun _ _ waits => waits) weights
      intro settled a member
      exact settled a (List.mem_append_left _ member)
  | createGuard found phase =>
      exact wakes.frame rfl rfl rfl rfl (Settled.of_set found (by simp [phase, Phase.owesNotify]) rfl)
        (fun _ => le_rfl) (fun _ _ waits => waits) weights
  | enqueue found phase =>
      have open_ := not_settled (s.enqueue _ _) found
        (.inQueue s.inner.nextPendingId .pushed none) rfl rfl
      exact wakes.frame rfl rfl rfl rfl (fun settled => absurd settled open_)
        (fun _ => le_rfl) (fun settled => absurd settled open_) weights
  | @stamp i a pendingId slot found phase =>
      have open_ := not_settled (s.stamp i a pendingId slot) found
        (.inQueue pendingId .stamped slot) rfl rfl
      exact wakes.frame rfl rfl rfl rfl (fun settled => absurd settled open_)
        (fun _ => le_rfl) (fun _ _ waits => waits) weights
  | notify =>
      refine ⟨wakes.seen_le, wakes.fresh, ?_⟩
      intro _ empty
      simp [System.notify] at empty
  | receive found phase =>
      exact wakes.frame rfl rfl rfl rfl (Settled.of_set found (by simp [phase, Phase.owesNotify]) rfl)
        (fun _ => le_rfl) (fun _ _ waits => waits) weights
  | leaveGate found phase =>
      exact wakes.frame rfl rfl rfl rfl (Settled.of_set found (by simp [phase, Phase.owesNotify]) rfl)
        (fun _ => le_rfl) (fun _ _ waits => waits) weights
  | @closeReceiver _ i a pendingId since slot _ found phase =>
      cases slot with
      | none =>
          have written : (s.closeReceiver i a pendingId none).admissions =
              s.admissions.set i { a with phase := .unwinding (some pendingId) } := rfl
          exact wakes.frame rfl rfl rfl rfl
            (Settled.of_set found (by simp [phase, Phase.owesNotify]) written)
            (fun _ => le_rfl) (fun _ _ waits => waits) weights
      | some ticket =>
          have open_ := not_settled (s.closeReceiver i a pendingId (some ticket)) found
            (.waking (some pendingId)) rfl rfl
          exact wakes.frame rfl rfl rfl rfl (fun settled => absurd settled open_)
            (fun settled => absurd settled open_) (fun _ _ waits => waits) weights
  | @dropGuard i a pendingId found phase =>
      obtain ⟨-, permits, budget⟩ := DrrState.dropGuard_counters s.inner a.flowId pendingId
      refine wakes.frame rfl rfl rfl rfl
        (Settled.of_set found (by simp [phase, Phase.owesNotify]) rfl) ?_ ?_ weights
      · intro _
        simp only [System.dropGuard, DrrState.outstanding, permits, budget]
        exact le_rfl
      · intro _ f waits empty
        apply waits
        simp only [System.dropGuard]
        rw [DrrState.queue_dropGuard]
        split
        · subst f
          cases pendingId <;> simp [empty, DrrState.kept]
        · exact empty
  | @dropTicket i a ticket found phase =>
      have open_ := not_settled (s.dropTicket i a ticket) found (.waking none) rfl rfl
      exact wakes.frame rfl rfl rfl rfl (fun settled => absurd settled open_)
        (fun settled => absurd settled open_) (fun _ _ waits => waits) weights
  | wake =>
      refine ⟨wakes.seen_le, wakes.fresh, ?_⟩
      intro _ empty
      simp [System.wake] at empty
  | wakeNotified => exact awake (by simp) rfl wakes.seen_le
  | wakeChanged => exact awake (by simp) rfl le_rfl
  | wakeClosed => exact awake (by simp) rfl wakes.seen_le
  | readCap =>
      refine ⟨wakes.seen_le, ?_, fun asleep => LoopPc.noConfusion asleep⟩
      intro _ cap holds
      obtain rfl : s.effectiveCap cfg = cap := by simpa [LoopPc.cap?] using holds
      rfl
  | @park cap pc idle =>
      refine ⟨wakes.seen_le, ?_, ?_⟩
      · intro _ c holds
        simp [LoopPc.cap?] at holds
      · intro _ _ current _
        cases idle with
        | inl full =>
            left
            rw [wakes.fresh current cap (by simp [pc, LoopPc.cap?])] at full
            exact full
        | inr nobody =>
            right
            intro f waits
            have member := inv.repInv.mem_cursor_iff.mpr waits
            simp [nobody] at member
  | proceed pc =>
      refine ⟨wakes.seen_le, ?_, fun asleep => LoopPc.noConfusion asleep⟩
      intro current cap holds
      apply wakes.fresh current cap
      simpa [LoopPc.cap?, pc] using holds
  | round pc spec => exact wakes.round inv.repInv pc spec weights
  | sent => exact awake (by simp [deliverTicket]) rfl wakes.seen_le
  | sendFailed => exact awake (by simp [failedSend]) rfl wakes.seen_le
  | publish =>
      -- The new version is ahead of the one the loop has seen.
      have ahead : s.seen ≠ s.snapshots.version + 1 := by
        have := wakes.seen_le
        omega
      refine ⟨Nat.le_succ_of_le wakes.seen_le, ?_, ?_⟩
      · intro current
        exact absurd current ahead
      · intro _ _ current
        exact absurd current ahead
  | closeMonitor =>
      refine ⟨wakes.seen_le, wakes.fresh, ?_⟩
      intro asleep empty current settled
      exact wakes.parked asleep empty current settled
  | _ =>
      exact wakes.frame rfl rfl rfl rfl (fun settled => settled) (fun _ => le_rfl)
        (fun _ _ waits => waits) weights

end Wakes

theorem owed_of_set {i j : Nat} {a b : Admission} (phase : Phase)
    (found : s.admissions[i]? = some a) (owes : a.phase.owesNotify = true)
    (foundB : s.admissions[j]? = some b)
    (same : s'.admissions = s.admissions.set j { b with phase })
    (here : b.phase.owesNotify = true → phase.owesNotify = true) :
    ∃ a', s'.admissions[i]? = some a' ∧ a'.phase.owesNotify = true := by
  rw [same, Slots.getElem?_set foundB]
  split
  · rename_i at_
    subst at_
    rw [found, Option.some.injEq] at foundB
    subst foundB
    exact ⟨_, rfl, here owes⟩
  · exact ⟨a, found, owes⟩

/-- An owed `notify_one` stays owed until it is called: no await lies before it,
    so no cancellation or timeout can take it away. -/
theorem Step.owed_kept (step : Step cfg arith s action event s') {i : Nat} {a : Admission}
    (found : s.admissions[i]? = some a) (owes : a.phase.owesNotify = true) :
    s'.notified = true ∨ ∃ a', s'.admissions[i]? = some a' ∧ a'.phase.owesNotify = true := by
  cases step with
  | notify | wake => exact .inl rfl
  | arrive => exact .inr ⟨a, Slots.getElem?_append found _, owes⟩
  | createGuard foundB phase | enqueue foundB phase | receive foundB phase
  | leaveGate foundB phase | dropGuard foundB phase | dropTicket foundB phase =>
      refine .inr (owed_of_set _ found owes foundB rfl ?_)
      simp [phase, Phase.owesNotify]
  | stamp foundB phase =>
      refine .inr (owed_of_set _ found owes foundB rfl ?_)
      simp [Phase.owesNotify]
  | @closeReceiver _ j b pendingId since slot _ foundB phase =>
      cases slot with
      | none =>
          refine .inr (owed_of_set (.unwinding (some pendingId)) found owes foundB rfl ?_)
          simp [phase, Phase.owesNotify]
      | some ticket =>
          refine .inr (owed_of_set (.waking (some pendingId)) found owes foundB rfl ?_)
          simp [phase, Phase.owesNotify]
  | @sent selection b pendingId stage _ foundB phase =>
      refine .inr (owed_of_set _ found owes foundB rfl ?_)
      rw [phase]
      cases stage <;> simp [Phase.owesNotify]
  | sendFailed => exact .inl rfl
  | _ => exact .inr ⟨a, found, owes⟩

/-- With constant weights, a loop that sleeps with no notification stored and
    every snapshot seen has used up the effective cap, or nobody who waits can
    gain credit, once every enqueue and ticket drop under way has made its call
    of `notify_one`. Such a call cannot be lost: the operation owes it until the
    notification is there. -/
theorem no_lost_wakeup (cfg : Config) (arith : I64Arith) {ts} {s : System}
    (run : (scheduler cfg arith).Exec (System.start cfg) ts s)
    (constant : ∀ tr ∈ ts, ∀ f, (tr.post.flow f).truncWeight = (tr.pre.flow f).truncWeight)
    (parked : s.pc = .parked) (empty : s.notified = false)
    (seen : s.seen = s.snapshots.version) :
    (s.Settled → s.effectiveCap cfg ≤ s.inner.outstanding ∨
      ∀ f, s.inner.queue f ≠ [] → (s.flow f).truncWeight < 1) ∧
      ∀ (i : Nat) (a : Admission), s.admissions[i]? = some a → a.phase.owesNotify = true →
        ∀ action event s', nextSystem cfg arith s action = some (s', event) →
          s'.notified = true ∨
            ∃ a', s'.admissions[i]? = some a' ∧ a'.phase.owesNotify = true := by
  have held : SystemInv cfg s ∧ Wakes cfg s := by
    refine run.invariant_within (I := fun t => SystemInv cfg t ∧ Wakes cfg t) constant
      ⟨SystemInv.start cfg, Wakes.start cfg⟩ ?_
    intro v a w e held weights next
    obtain ⟨inv, wakes⟩ := held
    have step := inv.step_of_next next
    exact ⟨inv.next step, wakes.next inv step weights⟩
  refine ⟨held.2.parked parked empty seen, ?_⟩
  intro i a found owes action event s' next
  exact (held.1.step_of_next next).owed_kept found owes

/-- The only permit is out and another flow waits. -/
def secondFlowWaits : List Action :=
  sendOne ⟨"a"⟩ (.fin 1) 0 ++
    [.receive 0, .readCap, .readState, .arrive ⟨"b"⟩ (.fin 1), .createGuard 1, .enqueue 1,
      .stamp 1, .notify 1, .wakeNotified, .readCap, .readState]

theorem no_lost_wakeup_full :
    let s := (scheduler Config.onePermit .wrapping).after secondFlowWaits
    s.inner.queue ⟨"b"⟩ ≠ [] ∧ s.pc = .parked ∧
      (s.effectiveCap Config.onePermit ≤ s.inner.outstanding ∨
        ∀ f, s.inner.queue f ≠ [] → (s.flow f).truncWeight < 1) := by
  refine ⟨by decide +kernel, by decide +kernel, ?_⟩
  have run := Machine.exec_after (scheduler Config.onePermit .wrapping) secondFlowWaits
  have constant : ∀ tr ∈ (scheduler Config.onePermit .wrapping).trace secondFlowWaits, ∀ f,
      (tr.post.flow f).truncWeight = (tr.pre.flow f).truncWeight := by
    intro tr member f
    refine congrArg F64.asI64 ((step_of_run run member).2.weight_eq ?_ f)
    exact Machine.action_of_trace (P := fun action => ∀ reg, action ≠ .register reg)
      (by simp [secondFlowWaits, sendOne]) member
  refine (no_lost_wakeup Config.onePermit .wrapping run constant (by decide +kernel)
    (by decide +kernel) (by decide +kernel)).1 ?_
  unfold System.Settled
  decide +kernel

end TinyLlb
