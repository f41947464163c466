import TinyLlb.Runtime.Permits

/-! # Grants stay below the effective cap

The loop reads the cap outside the lock and `try_select` checks it again under
the lock. Whatever the pressure does in between, a grant is made below the cap
of the round it belongs to; so once a lower cap has been read the permits that
are out can only drain.
-/

namespace TinyLlb

variable {cfg : Config} {arith : I64Arith} {s s' : System} {action : Action} {event : Option Event}

/-- The caps read in a run, with the pressures they were computed from. -/
def capReads (es : List Event) : List (ℚ × Nat) :=
  es.filterMap fun
    | .capRead pressure cap => some (pressure, cap)
    | _ => none

@[simp] theorem capReads_append (before after : List Event) :
    capReads (before ++ after) = capReads before ++ capReads after := List.filterMap_append

/-- The reading that the loop's current round goes by. -/
def lastCapRead (es : List Event) : Option (ℚ × Nat) := (capReads es).getLast?

theorem Step.cap_cases (step : Step cfg arith s action event s') {cap : Nat}
    (holds : cap ∈ s'.pc.cap?) :
    (event = some (.capRead s.pressure cap) ∧ cap = s.effectiveCap cfg) ∨
      (cap ∈ s.pc.cap? ∧ capReads event.toList = []) := by
  cases step with
  | closeReceiver =>
      unfold System.closeReceiver at holds
      split at holds <;> exact .inr ⟨holds, rfl⟩
  | wakeNotified | wakeChanged | wakeClosed | park | sent | sendFailed =>
      simp [LoopPc.cap?, System.deliverTicket, System.failedSend] at holds
  | readCap =>
      obtain rfl : s.effectiveCap cfg = cap := by simpa [LoopPc.cap?] using holds
      exact .inl ⟨rfl, rfl⟩
  | proceed pc =>
      refine .inr ⟨?_, rfl⟩
      simpa [LoopPc.cap?, pc] using holds
  | round => simp [System.afterRound_cap?] at holds
  | _ => exact .inr ⟨holds, rfl⟩

/-- The cap of the current round is the effective one for the pressure that the
    last reading saw. -/
theorem cap_of_lastCapRead {ts} (run : (scheduler cfg arith).Exec (System.start cfg) ts s)
    (cap : Nat) (holds : cap ∈ s.pc.cap?) :
    ∃ pressure, lastCapRead (Machine.events ts) = some (pressure, cap) ∧
      cap = cfg.scheduler.kvPressure.effectiveMax cfg.scheduler.maxActiveFlows.toNat pressure := by
  induction run with
  | nil => simp [System.start, LoopPc.cap?] at holds
  | @snoc ts t a u e before step ih =>
      have inv := SystemInv.reachable ⟨ts, before⟩
      unfold lastCapRead
      rw [Machine.events_append, Machine.events_singleton, capReads_append]
      cases (inv.step_of_next step).cap_cases holds with
      | inl read =>
          obtain ⟨emitted, effective⟩ := read
          refine ⟨t.pressure, ?_, effective⟩
          simp [emitted, capReads]
      | inr kept =>
          obtain ⟨holds, silent⟩ := kept
          rw [silent, List.append_nil]
          exact ih holds

/-- Only a grant raises the number of permits that are out, and it is made below
    the cap. -/
theorem Step.outstanding_cases (step : Step cfg arith s action event s') :
    s'.inner.outstanding ≤ s.inner.outstanding ∨
      action = .trySelect ∧ ∃ cap ∈ s.pc.cap?, s.inner.outstanding < cap := by
  have released : ∀ t : DrrState, t.release.outstanding ≤ t.outstanding := by
    intro t
    simp only [DrrState.outstanding, DrrState.release]
    omega
  cases step with
  | @dropGuard i a pendingId =>
      obtain ⟨-, permits, budget⟩ := DrrState.dropGuard_counters s.inner a.flowId pendingId
      refine .inl (le_of_eq ?_)
      simp only [System.dropGuard, DrrState.outstanding, permits, budget]
  | closeReceiver =>
      unfold System.closeReceiver
      split
      · exact .inl (released _)
      · exact .inl le_rfl
  | dropTicket | sendFailed => exact .inl (released _)
  | @round cap r pc spec =>
      cases selected : r.selection with
      | none =>
          have permits := spec.permits
          simp only [selected, Option.isSome_none, Bool.false_eq_true, if_false] at permits
          refine .inl (le_of_eq ?_)
          simp only [System.afterRound, DrrState.outstanding, spec.budget, ← permits, Nat.add_zero]
      | some selection =>
          obtain ⟨under, -⟩ := spec.served selected
          exact .inr ⟨rfl, cap, by simp [pc, LoopPc.cap?], under⟩
  | _ => exact .inl le_rfl

theorem Step.select_cases (step : Step cfg arith s action event s') {cap : Nat}
    (pc : s'.pc = .select cap) :
    (s.pc = .select cap ∧ action ≠ .trySelect) ∨
      (s.inner.outstanding < cap ∧ s'.inner = s.inner) := by
  cases step with
  | @proceed cap' _ below =>
      obtain rfl : cap' = cap := by simpa using pc
      exact .inr ⟨below, rfl⟩
  | @round _ r =>
      have empty := s.afterRound_cap? r
      simp [pc, LoopPc.cap?] at empty
  | closeReceiver which =>
      refine .inl ⟨?_, ?_⟩
      · unfold System.closeReceiver at pc
        split at pc <;> exact pc
      · cases which with
        | inl cancel => simp [cancel]
        | inr timeout => simp [timeout]
  | wakeNotified | wakeChanged | wakeClosed | readCap | park | sent | sendFailed =>
      simp [System.deliverTicket, System.failedSend] at pc
  | _ => exact .inl ⟨pc, by simp⟩

/-- When the loop calls `try_select` the cap it passes is still not used up: only
    its own grants raise the number of permits that are out. -/
theorem outstanding_lt_of_select (reach : (scheduler cfg arith).Reachable s) {cap : Nat}
    (pc : s.pc = .select cap) : s.inner.outstanding < cap := by
  revert pc
  refine reach.invariant (I := fun t => t.pc = .select cap → t.inner.outstanding < cap)
    (by simp [scheduler, System.start]) ?_
  intro v a w e reach under next pc
  have step := (SystemInv.reachable reach).step_of_next next
  cases step.select_cases pc with
  | inl kept =>
      cases step.outstanding_cases with
      | inl drains => exact lt_of_le_of_lt drains (under kept.1)
      | inr grant => exact absurd grant.1 kept.2
  | inr entered =>
      rw [entered.2]
      exact entered.1

theorem cap_bounded (bound : Nat) {ts t} (inv : SystemInv cfg s)
    (start : ∀ cap ∈ s.pc.cap?, cap ≤ bound) (run : (scheduler cfg arith).Exec s ts t)
    (reads : ∀ pressure cap, Event.capRead pressure cap ∈ Machine.events ts → cap ≤ bound) :
    SystemInv cfg t ∧ ∀ cap ∈ t.pc.cap?, cap ≤ bound := by
  have within : ∀ tr ∈ ts, ∀ pressure cap, tr.event = some (.capRead pressure cap) →
      cap ≤ bound := by
    intro tr member pressure cap emitted
    exact reads pressure cap (List.mem_filterMap.mpr ⟨tr, member, emitted⟩)
  refine run.invariant_within (I := fun t => SystemInv cfg t ∧ ∀ cap ∈ t.pc.cap?, cap ≤ bound)
    within ⟨inv, start⟩ ?_
  intro v a w e held allowed next
  obtain ⟨inv, bounded⟩ := held
  have step := inv.step_of_next next
  refine ⟨inv.next step, ?_⟩
  intro cap holds
  cases step.cap_cases holds with
  | inl read => exact allowed _ cap read.1
  | inr kept => exact bounded cap kept.1

/-- Every grant is made with fewer permits out than the effective cap for the
    pressure that its round read. The cap lies between 1 and the budget and does
    not grow with the pressure; after a reading the permits that are out only
    drain to it until a higher cap is read. -/
theorem grants_below_cap {cfg : Config} (valid : cfg.validate = .ok ()) (arith : I64Arith) {ts s}
    (run : (scheduler cfg arith).Exec (System.start cfg) ts s) :
    (∀ before tr after selection forced, ts = before ++ tr :: after →
      tr.event = some (.selected selection forced) →
      ∃ pressure cap, lastCapRead (Machine.events before) = some (pressure, cap) ∧
        cap = cfg.scheduler.kvPressure.effectiveMax cfg.scheduler.maxActiveFlows.toNat pressure ∧
        tr.pre.inner.outstanding < cap) ∧
      (∀ pressure,
        1 ≤ cfg.scheduler.kvPressure.effectiveMax cfg.scheduler.maxActiveFlows.toNat pressure ∧
        cfg.scheduler.kvPressure.effectiveMax cfg.scheduler.maxActiveFlows.toNat pressure ≤
          cfg.scheduler.maxActiveFlows.toNat) ∧
      (∀ low high, low ≤ high →
        cfg.scheduler.kvPressure.effectiveMax cfg.scheduler.maxActiveFlows.toNat high ≤
          cfg.scheduler.kvPressure.effectiveMax cfg.scheduler.maxActiveFlows.toNat low) ∧
      (∀ before tr after pressure cap, ts = before ++ tr :: after →
        tr.event = some (.capRead pressure cap) →
        (∀ pressure' cap', Event.capRead pressure' cap' ∈ Machine.events after → cap' ≤ cap) →
        ∀ tr' ∈ after, cap ≤ tr'.pre.inner.outstanding →
          tr'.post.inner.outstanding ≤ tr'.pre.inner.outstanding) ∧
      s.inner.outstanding ≤ cfg.scheduler.maxActiveFlows.toNat := by
  refine ⟨?_, ?_, ?_, ?_, ?_⟩
  · rintro before tr after selection forced rfl emitted
    obtain ⟨first, next, -⟩ := run.split_at
    have step := (SystemInv.reachable ⟨before, first⟩).step_of_next next
    obtain ⟨cap, r, -, pc, spec, selected, -⟩ := step.of_selected emitted
    obtain ⟨under, -⟩ := spec.served selected
    obtain ⟨pressure, last, effective⟩ :=
      cap_of_lastCapRead first cap (by simp [pc, LoopPc.cap?])
    exact ⟨pressure, cap, last, effective, under⟩
  · intro pressure
    exact ⟨KvPressure.effectiveMax_pos valid pressure, KvPressure.effectiveMax_le _ _ _⟩
  · intro low high le
    exact KvPressure.effectiveMax_antitone _ _ le
  · rintro before tr after pressure cap rfl emitted lower tr' member atCap
    obtain ⟨first, next, second⟩ := run.split_at
    have inv := SystemInv.reachable ⟨before, first⟩
    have step := inv.step_of_next next
    obtain ⟨-, -, -, -, post⟩ := step.of_capRead emitted
    -- From here to `tr'` the loop carries no cap above the one just read.
    obtain ⟨between, later, rfl, between_run, -⟩ := second.split_of_mem member
    obtain ⟨inv', bounded⟩ := cap_bounded cap (inv.next step) (by simp [post, LoopPc.cap?])
      between_run (by
        intro pressure' cap' read
        exact lower pressure' cap' (by simp [read]))
    have step' := inv'.step_of_next (second.step_of_mem member)
    cases step'.outstanding_cases with
    | inl drains => exact drains
    | inr grant =>
        obtain ⟨-, cap', holds, under⟩ := grant
        have := bounded cap' holds
        omega
  · have inv := SystemInv.reachable ⟨ts, run⟩
    rw [DrrState.outstanding, inv.budget]
    exact Nat.sub_le _ _

/-- One threshold: a single flow once half of the cache is in use. -/
def Config.halfLadder : Config :=
  { Config.default with
    scheduler := { SchedulerConfig.default with kvPressure := ⟨true, [⟨1 / 2, 1⟩]⟩ } }

/-- The pressure rises while a ticket is out: the next round reads a cap of 1. -/
theorem grants_below_cap_raised_pressure :
    let m := scheduler Config.halfLadder .wrapping
    let actions := sendOne ⟨"a"⟩ (.fin 1) 0 ++ [.publish (9 / 10), .readCap]
    lastCapRead (Machine.events (m.trace actions)) = some (9 / 10, 1) ∧
      (m.after actions).inner.outstanding = 1 ∧
      (m.after actions).inner.outstanding ≤ 4 := by
  refine ⟨by decide +kernel, by decide +kernel, ?_⟩
  have valid : Config.halfLadder.validate = .ok () := by decide +kernel
  exact (grants_below_cap valid .wrapping (Machine.exec_after _ _)).2.2.2.2

end TinyLlb
