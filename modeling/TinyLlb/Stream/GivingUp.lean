import TinyLlb.Stream.RetryBudgets

/-! # When a re-forward gives up

Before the stream, `transient_retry` goes on until an outcome is not transient or
its budget is spent. Within the stream a re-send that fails ends the request at
once, whatever is left of the budget.
-/

namespace TinyLlb

open RetryTask

section

variable {fromSlice : Bytes → Option Json} {policy : TransientRetry} {outcomes : Nat → SendOutcome}

theorem transientRetryFrom_transient (policy : TransientRetry) {attempt : Nat} (delays : List Duration)
    (transient : (outcomes (attempt + 1)).isTransient fromSlice = true) :
    (attempt + 1 < policy.maxAttempts →
      transientRetryFrom fromSlice policy outcomes attempt delays =
        transientRetryFrom fromSlice policy outcomes (attempt + 1)
          (delays ++ [transientBackoff (attempt + 1) policy])) ∧
    (policy.maxAttempts ≤ attempt + 1 →
      (transientRetryFrom fromSlice policy outcomes attempt delays).delays =
          delays ++ [transientBackoff (attempt + 1) policy] ∧
        (transientRetryFrom fromSlice policy outcomes attempt delays).exhausted = true) := by
  rw [transientRetryFrom]
  cases outcome : outcomes (attempt + 1) with
  | timeout => simp [outcome, SendOutcome.isTransient] at transient
  | network e =>
      have clears : isTransientNetworkError e = true := by
        simpa [outcome, SendOutcome.isTransient] using transient
      constructor
      · intro room
        simp [clears, room]
      · intro spent
        simp [clears, Nat.not_lt.mpr spent]
  | response status body =>
      cases body with
      | error e => simp [outcome, SendOutcome.isTransient] at transient
      | ok bytes =>
          obtain ⟨failure, clears⟩ : isSuccessStatus status = false ∧
              classifyLlamacppError fromSlice bytes = .transient := by
            simpa [outcome, SendOutcome.isTransient] using transient
          constructor
          · intro room
            simp [failure, clears, room]
          · intro spent
            simp [failure, clears, Nat.not_lt.mpr spent]

theorem transientRetryFrom_exhausts (transient : ∀ n, (outcomes n).isTransient fromSlice = true)
    {attempt : Nat} {delays : List Duration} (room : attempt < policy.maxAttempts)
    (made : delays.length = attempt) :
    (transientRetryFrom fromSlice policy outcomes attempt delays).sends = policy.maxAttempts ∧
      (transientRetryFrom fromSlice policy outcomes attempt delays).exhausted = true := by
  induction left : policy.maxAttempts - attempt generalizing attempt delays with
  | zero => omega
  | succ n ih =>
      obtain ⟨again, last⟩ := transientRetryFrom_transient policy delays (transient (attempt + 1))
      by_cases more : attempt + 1 < policy.maxAttempts
      · rw [again more]
        exact ih more (by simp [made]) (by omega)
      · obtain ⟨all, exhausted⟩ := last (Nat.not_lt.mp more)
        refine ⟨?_, exhausted⟩
        rw [TransientRetryRun.sends, all, List.length_append, List.length_singleton]
        omega

end

/-- The transition counts the budget as spent. -/
def GivesUp (tr : TaskTransition) : Prop :=
  tr.post.metrics.backendRetryExhausted ≠ tr.pre.metrics.backendRetryExhausted

/-- The transition learns that a re-send failed. -/
def FailedResend (tr : TaskTransition) : Prop :=
  (∃ frame, tr.pre.pc = .awaitReforward frame) ∧
    ∃ outcome, tr.action = .respond outcome ∧ outcome.isSuccess = false

/-- The budget is counted as spent only after `max_attempts` re-sends. -/
def GivesUpLate (cfg : RetryConfig) (ts : List TaskTransition) : Prop :=
  ∀ before tr after, ts = before ++ tr :: after → GivesUp tr →
    (Machine.events before).countP TaskEvent.isReforward = cfg.transientPolicy.maxAttempts

/-- Every re-send comes back with a transient failure. -/
def AllTransient (cfg : RetryConfig) (ts : List TaskTransition) : Prop :=
  ∀ tr ∈ ts, ∀ frame outcome, tr.pre.pc = .awaitReforward frame → tr.action = .respond outcome →
    outcome.isTransient cfg.fromSlice = true

section

variable {cfg : RetryConfig} {guard : LifecycleGuard} {s s' : RetryTask} {action : TaskAction}
  {event : Option TaskEvent} {ts : List TaskTransition}

theorem SendOutcome.not_success {fromSlice : Bytes → Option Json} {outcome : SendOutcome}
    (transient : outcome.isTransient fromSlice = true) : outcome.isSuccess = false := by
  cases outcome with
  | timeout | network => rfl
  | response status body =>
      cases body with
      | error e => cases transient
      | ok bytes =>
          simp only [isTransient, Bool.and_eq_true, Bool.not_eq_true'] at transient
          exact transient.1

/-- Only a failed re-send counts the budget as spent, and the end of a stream for
    which nothing is left of it. -/
theorem TaskStep.givesUp (step : TaskStep cfg s action event s')
    (counted : GivesUp ⟨s, action, event, s'⟩) :
    FailedResend ⟨s, action, event, s'⟩ ∨ cfg.transientPolicy.maxAttempts ≤ s.transientAttempt := by
  cases step with
  | @reforwardFailed outcome frame pc failure => exact .inl ⟨⟨frame, pc⟩, outcome, rfl, failure⟩
  | exhausted pc open_ nothing spent count =>
      right
      by_contra room
      have positive : cfg.transientPolicy.maxAttempts > 0 := by omega
      simp [mayReforward, nothing] at spent
      omega
  | gone attempt transientAttempt ok parser kept active uncounted => exact absurd uncounted counted
  | passed => exact absurd (countUsage_backendRetryExhausted _ _ _) counted
  | accepted =>
      refine absurd ?_ counted
      exact (countUsage_backendRetryExhausted _ _ _).trans (accept_backendRetryExhausted _ _)
  | _ => exact absurd rfl counted

theorem TaskStep.givesUp_of_failed (step : TaskStep cfg s action event s')
    (failed : FailedResend ⟨s, action, event, s'⟩) :
    GivesUp ⟨s, action, event, s'⟩ := by
  obtain ⟨⟨frame, pc⟩, outcome, rfl, failure⟩ := failed
  cases step with
  | restarted _ success => cases failure.symm.trans success
  | retryFailed other => cases other.symm.trans pc
  | reforwardFailed => simp [GivesUp]

/-- The task gives up late exactly where only the last re-send of the budget fails. -/
theorem givesUpLate_iff (run : (retryStream cfg guard).Exec (retryStream cfg guard).start ts s) :
    GivesUpLate cfg ts ↔
      ∀ tr ∈ ts, FailedResend tr → tr.pre.transientAttempt = cfg.transientPolicy.maxAttempts := by
  constructor
  · intro late tr member failed
    obtain ⟨before, after, rfl, first, -⟩ := run.split_of_mem member
    have gives := (step_of_nextTask (run.step_of_mem member)).givesUp_of_failed failed
    rw [← (withinBudget_of_run first).reforwards]
    exact late before tr after rfl gives
  · rintro last before tr after rfl gives
    obtain ⟨first, next, -⟩ := run.split_at
    have budget := withinBudget_of_run first
    rw [budget.reforwards]
    rcases (step_of_nextTask next).givesUp gives with failed | spent
    · exact last tr (by simp) failed
    · exact Nat.le_antisymm budget.transientAttempt spent

/-- Where every re-send fails, there is one at most. -/
def OneResend (s : RetryTask) : Prop :=
  (s.transientAttempt = 0 ∧ ∀ frame, s.pc ≠ .awaitReforward frame) ∨ s.transientAttempt = 1 ∧
    (s.pc.leaving = true ∨ (∃ frame, s.pc = .awaitReforward frame) ∨ ∃ frame, s.pc = .errorFrame frame)

theorem OneResend.unused {pc : TaskPc} (held : OneResend s) (here : s.pc = pc)
    (active : pc.leaving = false) (idle : ∀ frame, pc ≠ .awaitReforward frame)
    (other : ∀ frame, pc ≠ .errorFrame frame) : s.transientAttempt = 0 := by
  rcases held with ⟨zero, -⟩ | ⟨-, left | ⟨frame, waits⟩ | ⟨frame, sends⟩⟩
  · exact zero
  · rw [here, active] at left
    cases left
  · exact absurd (here.symm.trans waits) (idle frame)
  · exact absurd (here.symm.trans sends) (other frame)

theorem OneResend.used {frame : Option Bytes} (held : OneResend s) (here : s.pc = .awaitReforward frame) :
    s.transientAttempt = 1 := by
  rcases held with ⟨-, idle⟩ | ⟨one, -⟩
  · exact absurd here (idle frame)
  · exact one

theorem TaskStep.oneResend (step : TaskStep cfg s action event s')
    (fails : ∀ frame outcome, s.pc = .awaitReforward frame → action = .respond outcome →
      outcome.isSuccess = false) (held : OneResend s) : OneResend s' := by
  cases step with
  | restarted pc success =>
      rcases pc with pc | ⟨frame, pc⟩
      · exact .inl ⟨held.unused pc rfl (by simp) (by simp), by simp [restart]⟩
      · cases (fails frame _ pc rfl).symm.trans success
  | @reforwardedFrame c frame rest pc =>
      refine .inr ⟨?_, .inr (.inl ⟨_, rfl⟩)⟩
      change s.transientAttempt + 1 = 1
      rw [held.unused pc rfl (by simp) (by simp)]
  | reforwardedEnd pc =>
      refine .inr ⟨?_, .inr (.inl ⟨_, rfl⟩)⟩
      change s.transientAttempt + 1 = 1
      rw [held.unused pc rfl (by simp) (by simp)]
  | @reforwardFailed outcome frame pc =>
      refine .inr ⟨held.used pc, ?_⟩
      cases frame with
      | none => exact .inl rfl
      | some frame => exact .inr (.inr ⟨frame, rfl⟩)
  | gone attempt transientAttempt =>
      rw [OneResend, transientAttempt]
      exact held.imp (fun unused => ⟨unused.1, by simp⟩) fun once => ⟨once.1, .inl rfl⟩
  | errorFrame | closed =>
      exact held.imp (fun unused => ⟨unused.1, by simp⟩) fun once => ⟨once.1, .inl rfl⟩
  | passed pc | accepted pc =>
      refine .inl ⟨?_, by simp⟩
      rw [countUsage_transientAttempt]
      exact held.unused pc rfl (by simp) (by simp)
  | stalled pc | late pc | fed pc | ended pc | drained pc | premature pc | panicked pc | dropped pc
  | forwarded pc | noticed pc | retried pc | flushedNothing pc | flushed pc | completed pc
  | abandoned pc | exhausted pc | unwritable pc | retryFailed pc =>
      exact .inl ⟨held.unused pc rfl (by simp) (by simp), by simp⟩

theorem oneResend_of_run (transient : AllTransient cfg ts)
    (run : (retryStream cfg guard).Exec (retryStream cfg guard).start ts s) : OneResend s := by
  refine run.invariant_within (I := OneResend) transient (.inl ⟨rfl, by simp [retryStream, start]⟩) ?_
  intro v a w e held clears next
  refine (step_of_nextTask next).oneResend ?_ held
  intro frame outcome pc response
  exact SendOutcome.not_success (clears frame outcome pc response)

/-- The task gives up late exactly where only the last re-send of its budget fails.
    Where all of them fail, that is a budget of one; before the stream the whole
    budget is used. -/
theorem mid_stream_gives_up_iff
    (run : (retryStream cfg guard).Exec (retryStream cfg guard).start ts s) :
    (GivesUpLate cfg ts ↔
      ∀ tr ∈ ts, FailedResend tr → tr.pre.transientAttempt = cfg.transientPolicy.maxAttempts) ∧
    (AllTransient cfg ts → (∃ tr ∈ ts, FailedResend tr) →
      ∀ outcomes : Nat → SendOutcome, (∀ n, (outcomes n).isTransient cfg.fromSlice = true) →
        (transientRetry cfg.fromSlice cfg.transientPolicy outcomes).sends =
            cfg.transientPolicy.maxAttempts ∧
          (transientRetry cfg.fromSlice cfg.transientPolicy outcomes).exhausted = true ∧
          (GivesUpLate cfg ts ∧ (Machine.events ts).countP TaskEvent.isReforward =
              (transientRetry cfg.fromSlice cfg.transientPolicy outcomes).sends ↔
            cfg.transientPolicy.maxAttempts = 1)) := by
  refine ⟨givesUpLate_iff run, ?_⟩
  rintro transient ⟨tr, member, failed⟩ outcomes clears
  have once : ∀ tr ∈ ts, FailedResend tr → tr.pre.transientAttempt = 1 := by
    intro tr member failed
    obtain ⟨before, after, rfl, first, -⟩ := run.split_of_mem member
    have held := oneResend_of_run (fun tr member => transient tr (List.mem_append_left _ member)) first
    obtain ⟨⟨frame, pc⟩, -⟩ := failed
    exact held.used pc
  have budget := withinBudget_of_run run
  have made : 1 ≤ (Machine.events ts).countP TaskEvent.isReforward := by
    have here := once tr member failed
    obtain ⟨before, after, rfl, first, -⟩ := run.split_of_mem member
    rw [Machine.events_append, List.countP_append, (withinBudget_of_run first).reforwards]
    omega
  have within : (Machine.events ts).countP TaskEvent.isReforward ≤ cfg.transientPolicy.maxAttempts :=
    budget.reforwards.trans_le budget.transientAttempt
  have room : 0 < cfg.transientPolicy.maxAttempts := Nat.lt_of_lt_of_le made within
  obtain ⟨all, exhausted⟩ : (transientRetry cfg.fromSlice cfg.transientPolicy outcomes).sends =
      cfg.transientPolicy.maxAttempts ∧ _ := transientRetryFrom_exhausts clears room rfl
  refine ⟨all, exhausted, ?_⟩
  rw [all, givesUpLate_iff run]
  constructor
  · rintro ⟨late, -⟩
    exact (late tr member failed).symm.trans (once tr member failed)
  · intro one
    rw [one] at within ⊢
    exact ⟨once, Nat.le_antisymm within made⟩

end

/-- A connection that cannot be made. -/
def refusedConnection : SendOutcome := .network ⟨true, [some .connectionRefused]⟩

/-- A stream that ends with nothing in it, and a re-send that is refused. -/
def refusedTurn : List TaskAction :=
  [.read .eof false, .step true, .step true, .respond refusedConnection]

def RetryConfig.sampleOne : RetryConfig :=
  { RetryConfig.sample with transientPolicy := { TransientRetry.default with maxAttempts := 1 } }

theorem allTransient_refusedTurn (cfg : RetryConfig) :
    AllTransient cfg ((retryStream cfg (.new ⟨"f"⟩ 100)).trace refusedTurn) := by
  intro tr member frame outcome _ response
  have offered := Machine.action_of_trace (P := fun action => ∀ outcome, action = .respond outcome →
    outcome.isTransient cfg.fromSlice = true) (by simp [refusedTurn]; rfl) member
  exact offered outcome response

theorem mid_stream_gives_up_iff_one :
    (transientRetry sampleReader RetryConfig.sampleOne.transientPolicy fun _ => refusedConnection).sends =
        1 ∧
      GivesUpLate .sampleOne ((retryStream .sampleOne (.new ⟨"f"⟩ 100)).trace refusedTurn) := by
  have run := (retryStream .sampleOne (.new ⟨"f"⟩ 100)).exec_after refusedTurn
  have failed : ∃ tr ∈ (retryStream .sampleOne (.new ⟨"f"⟩ 100)).trace refusedTurn, FailedResend tr :=
    ⟨_, List.mem_of_getElem? (i := 3) rfl, ⟨none, rfl⟩, refusedConnection, rfl, rfl⟩
  obtain ⟨sends, -, late⟩ := (mid_stream_gives_up_iff run).2 (allTransient_refusedTurn _) failed
    (fun _ => refusedConnection) fun _ => rfl
  exact ⟨sends, (late.mpr rfl).1⟩

/-- With a budget of three, the first re-send that is refused ends the request. -/
theorem mid_stream_gives_up_early :
    AllTransient .sample (retrySample.trace refusedTurn) ∧
      (transientRetry sampleReader RetryConfig.sample.transientPolicy fun _ => refusedConnection).sends =
        3 ∧
      (Machine.events (retrySample.trace refusedTurn)).countP TaskEvent.isReforward = 1 ∧
      ¬ GivesUpLate .sample (retrySample.trace refusedTurn) := by
  refine ⟨allTransient_refusedTurn _, ?_, by decide +kernel, ?_⟩
  · have room : 0 < RetryConfig.sample.transientPolicy.maxAttempts := by decide
    exact (transientRetryFrom_exhausts (fun _ => rfl) room rfl).1
  · intro late
    obtain ⟨before, last, split, counted, resends⟩ :
        ∃ before last, retrySample.trace refusedTurn = before ++ last :: [] ∧
          last.post.metrics.backendRetryExhausted ≠ last.pre.metrics.backendRetryExhausted ∧
            (Machine.events before).countP TaskEvent.isReforward = 1 :=
      ⟨(retrySample.trace refusedTurn).take 3, _, rfl, by decide +kernel, by decide +kernel⟩
    have three := late before last [] split counted
    rw [resends] at three
    cases three

end TinyLlb
