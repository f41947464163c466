import TinyLlb.Stream.RetryBudgets

/-! # The guard at every end of a stream

The task also ends when the client is found gone, at any of its sends, or in a
panic. A step that finds the client gone is the step that is taken otherwise, but
for the place it leads to, so the results for a client that stays carry over to
the state in which the guard is dropped.
-/

namespace TinyLlb

open RetryTask

section

variable {cfg : RetryConfig} {s s' : RetryTask} {action : TaskAction} {event : Option TaskEvent}
  {ts : List TaskTransition}

/-- The step without the client, where the one with it leads to `t`. -/
inductive Unattended (s t s' : RetryTask) : Prop where
  | unsent (same : s' = t)
  | gone (at_ : s' = { t with pc := .finished .disconnected }) (ok : t.streamOk = s.streamOk)
      (active : s.pc.leaving = false)

theorem handleFrame_unattended {frame : Bytes} {rest : List Bytes} (active : s.pc.leaving = false) :
    Unattended s (s.handleFrame cfg frame rest true).1 (s.handleFrame cfg frame rest false).1 := by
  simp only [handleFrame]
  split
  · exact .unsent rfl
  · split
    · split
      · exact .unsent rfl
      · exact .gone rfl (countUsage_streamOk _ _ _) active
    · split
      · exact .unsent rfl
      · exact .gone rfl rfl active

theorem unattended_of_next (next : nextTask cfg s (.step false) = some (s', event)) :
    ∃ t e, nextTask cfg s (.step true) = some (t, e) ∧ Unattended s t s' := by
  cases pc : s.pc with
  | frames rest =>
      have active : s.pc.leaving = false := by rw [pc]; rfl
      cases rest with
      | nil =>
          simp only [nextTask, pc, Option.some.injEq] at next ⊢
          cases next
          exact ⟨_, _, rfl, .unsent rfl⟩
      | cons frame rest =>
          simp only [nextTask, pc] at next ⊢
          split at next
          · rename_i accepted
            rw [if_pos accepted]
            cases next
            exact ⟨_, _, rfl, .gone rfl (countUsage_streamOk _ _ _) active⟩
          · rename_i open_
            rw [if_neg open_]
            obtain rfl := congrArg Prod.fst (Option.some.inj next)
            exact ⟨_, _, rfl, handleFrame_unattended active⟩
  | flush outcome =>
      have active : s.pc.leaving = false := by rw [pc]; rfl
      simp only [nextTask, pc] at next ⊢
      split at next
      · rename_i empty
        rw [if_pos empty]
        cases next
        exact ⟨_, _, rfl, .unsent rfl⟩
      · rename_i some_
        rw [if_neg some_]
        cases next
        exact ⟨_, _, rfl, .gone rfl rfl active⟩
  | notice | errorFrame =>
      simp only [nextTask, pc, Option.some.injEq] at next ⊢
      cases next
      exact ⟨_, _, rfl, .gone rfl rfl (by rw [pc]; rfl)⟩
  | retry =>
      simp only [nextTask, pc] at next ⊢
      split at next
      · cases next
        exact ⟨_, _, rfl, .unsent rfl⟩
      · cases next
        exact ⟨_, _, rfl, .unsent rfl⟩
  | settle | closing =>
      simp only [nextTask, pc] at next ⊢
      obtain rfl := congrArg Prod.fst (Option.some.inj next)
      exact ⟨_, _, rfl, .unsent rfl⟩
  | reading | awaitRetry | awaitReforward | finished => simp [nextTask, pc] at next

/-- The guard, and the counter of the tokens that moves with it. -/
inductive GuardCall (arith : I64Arith) (s s' : RetryTask) : Prop where
  | none (guard : s'.lifecycleGuard = s.lifecycleGuard)
      (counter : s'.metrics.tokensGenerated = s.metrics.tokensGenerated)
  | delivered (count : Int) (positive : 0 < count)
      (guard : s'.lifecycleGuard = s.lifecycleGuard.addDeliveredTokens arith count)
      (counter : s'.metrics.tokensGenerated = s.metrics.tokensGenerated + count)
  | completed (guard : s'.lifecycleGuard = s.lifecycleGuard.markCompleted)
      (counter : s'.metrics.tokensGenerated = s.metrics.tokensGenerated)

theorem GuardCall.congr {arith : I64Arith} {u u' : RetryTask} (call : GuardCall arith s s')
    (before : s.lifecycleGuard = u.lifecycleGuard ∧
      s.metrics.tokensGenerated = u.metrics.tokensGenerated)
    (after : u'.lifecycleGuard = s'.lifecycleGuard ∧
      u'.metrics.tokensGenerated = s'.metrics.tokensGenerated) : GuardCall arith u u' := by
  cases call with
  | none guard counter =>
      exact .none (after.1.trans (guard.trans before.1)) (after.2.trans (counter.trans before.2))
  | delivered count positive guard counter =>
      refine .delivered count positive (after.1.trans ?_) (after.2.trans ?_)
      · rw [guard, before.1]
      · rw [counter, before.2]
  | completed guard counter =>
      refine .completed (after.1.trans ?_) (after.2.trans (counter.trans before.2))
      rw [guard, before.1]

theorem countUsage_guardCall (cfg : RetryConfig) (s : RetryTask) (frame : Bytes) (hasUsage : Bool) :
    GuardCall cfg.arith s (s.countUsage cfg frame hasUsage) := by
  unfold countUsage
  dsimp only
  split
  · rename_i counted
    exact .delivered _ counted.2 rfl rfl
  · exact .none rfl rfl

theorem TaskStep.guardCall (step : TaskStep cfg s action event s') (there : action ≠ .step false) :
    GuardCall cfg.arith s s' := by
  cases step with
  | gone => exact absurd rfl there
  | passed => exact (countUsage_guardCall cfg s _ _).congr ⟨rfl, rfl⟩ ⟨rfl, rfl⟩
  | @accepted frame rest reason =>
      have counter : ((s.noted cfg frame).accept cfg reason).metrics.tokensGenerated =
          s.metrics.tokensGenerated := by
        unfold accept
        dsimp only
        split <;> rfl
      have call := countUsage_guardCall cfg ((s.noted cfg frame).accept cfg reason) frame
        (cfg.classify frame).hasUsage
      exact call.congr ⟨rfl, counter⟩ ⟨rfl, rfl⟩
  | completed => exact .completed rfl rfl
  | _ => exact .none rfl rfl

theorem guardCall_of_next (next : nextTask cfg s action = some (s', event)) :
    GuardCall cfg.arith s s' := by
  by_cases there : action = .step false
  · subst there
    obtain ⟨t, e, attended, unattended⟩ := unattended_of_next next
    have call := (step_of_nextTask attended).guardCall (by simp)
    cases unattended with
    | unsent same =>
        subst same
        exact call
    | gone at_ =>
        subst at_
        exact call.congr ⟨rfl, rfl⟩ ⟨rfl, rfl⟩
  · exact (step_of_nextTask next).guardCall there

/-- The guard of a stream, after the events of the attempt that have been dealt with. -/
structure GuardTold (cfg : RetryConfig) (bytes : Bytes) (frames : List Bytes) (s : RetryTask) :
    Prop where
  undelivered : s.accepted = false → s.lifecycleGuard.deliveredTokens = 0
  delivered : s.accepted = true →
    s.lifecycleGuard.deliveredTokens = cfg.arith.store (usageTotal cfg (fromTerminal cfg frames))
  completed : s.lifecycleGuard.completedNormally = true ↔
    s.accepted = true ∧ s.pc.leaving = true ∧ s.pc ≠ .finished .disconnected
  dealt : s.accepted = true → frames <+: (SseFrameParser.cutter.extract bytes).1
  whole : s.lifecycleGuard.completedNormally = true →
    frames = (SseFrameParser.cutter.extract bytes).1

theorem inAttempt_or_streamOk (settled : Settled s) (concluded : Concluded s)
    (accepted : s.accepted = true) : s.pc.inAttempt = true ∨ s.streamOk = true := by
  rcases settled accepted with inside | left
  · exact .inl inside
  · exact .inr ((concluded.outcome left).trans accepted)

theorem GuardTold.of_connected {bytes : Bytes} {frames : List Bytes} (settled : Settled s)
    (concluded : Concluded s) (counted : Counted cfg frames s) (view : AttemptView bytes frames s) :
    GuardTold cfg bytes frames s where
  undelivered := counted.open_
  delivered accepted := counted.total (inAttempt_or_streamOk settled concluded accepted)
  completed := by
    rw [concluded.completed]
    constructor
    · intro ok
      have left := concluded.active ok
      exact ⟨(concluded.outcome left).symm.trans ok, left, concluded.present⟩
    · rintro ⟨accepted, left, -⟩
      exact (concluded.outcome left).trans accepted
  dealt accepted := by
    rw [view (inAttempt_or_streamOk settled concluded accepted)]
    exact List.prefix_append _ _
  whole completed := by
    have ok := concluded.completed.symm.trans completed
    have left := concluded.active ok
    have idle : s.pc.pending = [] := by
      cases pc : s.pc with
      | closing | finished => rfl
      | _ =>
          rw [pc] at left
          cases left
    rw [view (.inr ok), idle, List.append_nil]

/-- A client that goes leaves the guard as the step would have left it. -/
theorem GuardTold.of_gone {bytes : Bytes} {frames : List Bytes} (settled : Settled s)
    (concluded : Concluded s) (counted : Counted cfg frames s) (view : AttemptView bytes frames s)
    (notOk : s.streamOk = false) :
    GuardTold cfg bytes frames { s with pc := .finished .disconnected } := by
  have told := GuardTold.of_connected settled concluded counted view
  have open_ : s.lifecycleGuard.completedNormally = false := concluded.completed.trans notOk
  refine ⟨told.undelivered, told.delivered, ?_, told.dealt, told.whole⟩
  simp [open_]

theorem handleOn_step (frames : List Bytes) (s t t' : RetryTask) (c c' : Bool)
    (e e' : Option TaskEvent) :
    handleOn frames ⟨s, .step c, e, t⟩ = handleOn frames ⟨s, .step c', e', t'⟩ := by
  cases pc : s.pc with
  | frames rest => cases rest <;> simp [handleOn, handled?, pc]
  | _ => simp [handleOn, handled?, pc]

/-- Along every run: what the guard was told, and, as long as the client is there,
    what the results for that case rest on. -/
theorem guardTold_of_run {flowId : FlowId} {estimatedCost : Int}
    (run : (retryStream cfg (.new flowId estimatedCost)).Exec
      (retryStream cfg (.new flowId estimatedCost)).start ts s) :
    GuardTold cfg (attemptBytes cfg ts) (handledFrames ts) s ∧
      (s.pc ≠ .finished .disconnected → Concluded s ∧ Counted cfg (handledFrames ts) s) := by
  induction run with
  | nil =>
      have calm : Connected [] := by simp [Connected]
      have concluded := concluded_of_run rfl calm
        (Machine.Exec.nil (m := retryStream cfg (.new flowId estimatedCost)))
      have counted := counted_of_run calm
        (Machine.Exec.nil (m := retryStream cfg (.new flowId estimatedCost)))
      exact ⟨.of_connected (settled_of_run .nil) concluded counted (extract_attempt .nil),
        fun _ => ⟨concluded, counted⟩⟩
  | @snoc ts v a w e whole next ih =>
      have live := (step_of_nextTask next).not_finished .disconnected
      obtain ⟨concluded, counted⟩ := ih.2 live
      have settled := settled_of_run whole
      rw [attemptBytes_snoc, handledFrames_snoc]
      -- what a step with the client there leads to
      have attended : ∀ {a t e}, a ≠ .step false → nextTask cfg v a = some (t, e) →
          Settled t ∧ Concluded t ∧ Counted cfg (handleOn (handledFrames ts) ⟨v, a, e, t⟩) t ∧
            AttemptView (readOn cfg (attemptBytes cfg ts) ⟨v, a, e, t⟩)
              (handleOn (handledFrames ts) ⟨v, a, e, t⟩) t := by
        intro a t e there next
        have step := step_of_nextTask next
        exact ⟨step.settled settled, step.concluded there settled concluded,
          step.counted there settled concluded counted,
          step.attemptView (leaving_of_streamOk whole) (extract_attempt whole)⟩
      by_cases there : a = .step false
      · subst there
        obtain ⟨t, e', next', unattended⟩ := unattended_of_next next
        obtain ⟨settled', concluded', counted', view'⟩ := attended (by simp) next'
        rw [handleOn_step _ v w t false true e e']
        cases unattended with
        | unsent same =>
            subst same
            exact ⟨.of_connected settled' concluded' counted' view',
              fun _ => ⟨concluded', counted'⟩⟩
        | gone at_ ok active =>
            have notOk : v.streamOk = false := by
              rw [Bool.eq_false_iff]
              intro yes
              cases (concluded.active yes).symm.trans active
            subst at_
            exact ⟨.of_gone settled' concluded' counted' view' (ok.trans notOk),
              fun here => absurd rfl here⟩
      · obtain ⟨settled', concluded', counted', view'⟩ := attended there next
        exact ⟨.of_connected settled' concluded' counted' view', fun _ => ⟨concluded', counted'⟩⟩

theorem open_of_panicked {guard : LifecycleGuard}
    (run : (retryStream cfg guard).Exec (retryStream cfg guard).start ts s) :
    s.pc = .finished .panicked → s.accepted = false := by
  refine run.invariant (I := fun s => s.pc = .finished .panicked → s.accepted = false) ?_ ?_
  · intro over_
    cases over_
  · intro v a w e held next over_
    cases step_of_nextTask next with
    | panicked pc open_ => exact open_
    | @reforwardFailed outcome frame => cases frame <;> cases over_
    | _ => cases over_

theorem guard_of_run {guard : LifecycleGuard}
    (run : (retryStream cfg guard).Exec (retryStream cfg guard).start ts s) :
    s.lifecycleGuard.flowId = guard.flowId ∧
      s.lifecycleGuard.estimatedCost = guard.estimatedCost := by
  refine run.invariant (I := fun s => s.lifecycleGuard.flowId = guard.flowId ∧
    s.lifecycleGuard.estimatedCost = guard.estimatedCost) ⟨rfl, rfl⟩ ?_
  intro v a w e held next
  cases guardCall_of_next next with
  | none told | delivered _ _ told | completed told =>
      rw [told]
      exact held

end

/-- The tokens counted for a stream: those of the accepted attempt, up to the last
    event dealt with, whether or not the client got it. -/
def streamTokens (cfg : RetryConfig) (ts : List TaskTransition) (s : RetryTask) : Int :=
  if s.accepted then usageTotal cfg (fromTerminal cfg (handledFrames ts)) else 0

def TaskPc.isClosed : TaskPc → Bool
  | .finished .closed => true
  | _ => false

/-- What a stream that is over costs its flow: its tokens, and the estimate where an
    accepted turn came to its end without any. -/
def streamCost (cfg : RetryConfig) (estimatedCost : Int) (ts : List TaskTransition) (s : RetryTask) :
    Int :=
  if s.accepted && s.pc.isClosed && decide (streamTokens cfg ts s = 0) then estimatedCost
  else streamTokens cfg ts s

theorem usageTotal_nonneg (cfg : RetryConfig) (frames : List Bytes) : 0 ≤ usageTotal cfg frames := by
  unfold usageTotal
  apply List.sum_nonneg
  intro tokens member
  obtain ⟨frame, -, rfl⟩ := List.mem_map.mp member
  split
  · exact completionTokensFromFrame_nonneg cfg.fromSlice frame
  · exact le_rfl

theorem streamTokens_nonneg (cfg : RetryConfig) (ts : List TaskTransition) (s : RetryTask) :
    0 ≤ streamTokens cfg ts s := by
  unfold streamTokens
  split
  · exact usageTotal_nonneg cfg _
  · exact le_rfl

end TinyLlb
