import Mathlib.Algebra.BigOperators.Ring.Finset
import Mathlib.Algebra.Order.BigOperators.Group.Finset
import TinyLlb.Stream.RetryBudgets

/-! # Every retry stream ends

A potential that every step lowers, except that reading a chunk may raise it by
the size of the chunk. With the two budgets this bounds every run by what the
attempts send, and the results about acceptance and accounting become statements
about the end of the task. The guard adds the tokens of each usage frame in an
`i64`, so it holds their sum as long as the sum fits.
-/

namespace TinyLlb

open RetryTask

/-- Steps left before the task ends or reads again. -/
def TaskPc.weight : TaskPc → Nat
  | finished _ => 0
  | closing => 1
  | errorFrame _ | settle _ => 2
  | flush _ => 3
  | reading => 4
  | frames _ | awaitRetry | awaitReforward _ => 5
  | retry _ => 6
  | notice _ => 7

/-- Requests that the budgets still allow. -/
def RetryTask.budgetLeft (cfg : RetryConfig) (s : RetryTask) : Nat :=
  (cfg.policy.maxRetries - s.attempt) + (cfg.transientPolicy.maxAttempts - s.transientAttempt)

def RetryTask.potential (cfg : RetryConfig) (s : RetryTask) : Nat :=
  s.pc.weight + s.pc.pending.flatten.length + s.parser.buffer.length + 4 * s.budgetLeft cfg

/-- What a chunk adds to the work of the task. -/
def volume (tr : TaskTransition) : Nat :=
  match tr.action with
  | .read (.chunk bytes) _ => bytes.length + 2
  | _ => 0

section

variable {cfg : RetryConfig} {guard : LifecycleGuard} {s s' : RetryTask} {action : TaskAction}
  {event : Option TaskEvent} {ts : List TaskTransition}

theorem length_feed (parser : SseFrameParser) (chunk : Bytes) :
    (parser.feed chunk).1.flatten.length + (parser.feed chunk).2.buffer.length =
      parser.buffer.length + chunk.length := by
  have whole := SseFrameParser.cutter.flatten_extract (parser.buffer ++ chunk)
  have size := congrArg List.length whole
  rw [List.length_append, List.length_append] at size
  exact size

theorem weight_pos {pc : TaskPc} (active : ∀ ending, pc ≠ .finished ending) : 1 ≤ pc.weight := by
  cases pc with
  | finished ending => exact absurd rfl (active ending)
  | _ => simp [TaskPc.weight]

theorem finished_of_weight {pc : TaskPc} (none_ : pc.weight = 0) : ∃ ending, pc = .finished ending := by
  by_contra active
  have some_ := weight_pos fun ending here => active ⟨ending, here⟩
  omega

theorem budgetLeft_reforward (may : s.mayReforward cfg = true) (frame : Option Bytes) :
    (s.reforward cfg frame).1.budgetLeft cfg + 1 = s.budgetLeft cfg := by
  obtain ⟨-, room⟩ := lt_of_mayReforward may
  simp only [budgetLeft, RetryTask.reforward]
  omega

theorem budgetLeft_detect {reason : String} (premature : s.premature cfg reason = true) :
    s.detectPrematureStop.budgetLeft cfg + 1 = s.budgetLeft cfg := by
  have room := (lt_of_premature premature).1
  simp only [budgetLeft, detectPrematureStop]
  omega

theorem TaskStep.potential_lt (step : TaskStep cfg s action event s')
    (filled : ∀ frame ∈ s.pc.pending, frame ≠ []) :
    s'.potential cfg + 1 ≤ s.potential cfg + volume ⟨s, action, event, s'⟩ := by
  have head : ∀ {frame rest}, s.pc = .frames (frame :: rest) → 1 ≤ frame.length := by
    intro frame rest pc
    have some_ := filled frame (by simp [pc, TaskPc.pending])
    exact List.length_pos_iff.mpr some_
  cases step with
  | @fed bytes late pc =>
      have size := length_feed s.parser bytes
      simp only [potential, pc, TaskPc.weight, TaskPc.pending, volume, List.flatten_nil,
        List.length_nil, budgetLeft]
      omega
  | @passed frame rest pc =>
      have one := head pc
      simp only [potential, pc, TaskPc.weight, TaskPc.pending, volume, List.flatten_cons,
        List.length_append, budgetLeft, countUsage_attempt, countUsage_transientAttempt,
        parser_countUsage]
      omega
  | @accepted frame rest reason pc =>
      have one := head pc
      simp only [potential, pc, TaskPc.weight, TaskPc.pending, volume, List.flatten_cons,
        List.length_append, budgetLeft, countUsage_attempt, countUsage_transientAttempt,
        parser_countUsage, accept, noted, note]
      omega
  | @dropped c frame rest pc | @forwarded frame rest pc =>
      have one := head pc
      simp only [potential, pc, TaskPc.weight, TaskPc.pending, volume, List.flatten_cons,
        List.length_append, budgetLeft, noted, note]
      omega
  | @reforwardedFrame c frame rest pc open_ on =>
      simp only [reforwardsOn, Bool.and_eq_true] at on
      have spent : _ = s.budgetLeft cfg := budgetLeft_reforward on.2 (some frame)
      change 5 + 0 + s.parser.buffer.length + 4 * budgetLeft cfg _ + 1 ≤ _
      simp only [potential, pc, TaskPc.weight, volume]
      omega
  | @reforwardedEnd c pc open_ may =>
      have spent := budgetLeft_reforward may none
      change 5 + 0 + s.parser.buffer.length + 4 * budgetLeft cfg _ + 1 ≤ _
      simp only [potential, pc, TaskPc.weight, volume]
      omega
  | @premature c frame rest reason body pc open_ off terminal premature =>
      have one := head pc
      have spent : _ = s.budgetLeft cfg :=
        budgetLeft_detect (s := s.noted cfg frame) premature
      change 7 + 0 + s.parser.buffer.length +
        4 * (s.noted cfg frame).detectPrematureStop.budgetLeft cfg + 1 ≤ _
      simp only [potential, pc, TaskPc.weight, TaskPc.pending, volume, List.flatten_cons,
        List.length_append]
      omega
  | @panicked c frame rest reason pc open_ off terminal premature =>
      have spent : _ = s.budgetLeft cfg :=
        budgetLeft_detect (s := s.noted cfg frame) premature
      change 0 + 0 + s.parser.buffer.length +
        4 * (s.noted cfg frame).detectPrematureStop.budgetLeft cfg + 1 ≤ _
      simp only [potential, pc, TaskPc.weight, volume]
      omega
  | @gone t attempt transientAttempt ok parser kept active =>
      have one := weight_pos active
      change 0 + 0 + t.parser.buffer.length + 4 * t.budgetLeft cfg + 1 ≤ _
      simp only [potential, volume, parser, budgetLeft, attempt, transientAttempt]
      omega
  | @restarted outcome pc =>
      change 4 + 0 + 0 + 4 * s.budgetLeft cfg + 1 ≤ _
      rcases pc with pc | ⟨frame, pc⟩
      · simp only [potential, pc, TaskPc.weight, volume]
        omega
      · simp only [potential, pc, TaskPc.weight, volume]
        omega
  | @reforwardFailed outcome frame pc =>
      have low : (afterFailedReforward frame).weight ≤ 2 ∧
          (afterFailedReforward frame).pending = [] := by
        cases frame <;> exact ⟨by simp [afterFailedReforward, TaskPc.weight], rfl⟩
      have before : s.pc.weight = 5 := by rw [pc]; rfl
      simp only [potential, before, volume, low.2, budgetLeft, List.flatten_nil, List.length_nil]
      omega
  | stalled pc | late pc | ended pc | drained pc | noticed pc | retried pc | errorFrame pc
  | flushedNothing pc | flushed pc | completed pc | abandoned pc | exhausted pc | closed pc
  | unwritable pc | retryFailed pc =>
      simp only [potential, pc, TaskPc.weight, TaskPc.pending, volume, budgetLeft, List.flatten_nil,
        List.length_nil]
      omega

theorem pending_filled (run : (retryStream cfg guard).Exec (retryStream cfg guard).start ts s) :
    ∀ frame ∈ s.pc.pending, frame ≠ [] := by
  intro frame member
  have inside : s.pc.inAttempt = true := by
    cases pc : s.pc with
    | frames rest => rfl
    | _ => simp [pc, TaskPc.pending] at member
  have view := extract_attempt run (.inl inside)
  have cut : frame ∈ (SseFrameParser.cutter.extract (attemptBytes cfg ts)).1 := by
    rw [view]
    exact List.mem_append_right _ member
  rintro rfl
  have positive := SseFrameParser.cutter.pos (SseFrameParser.cutter.find_frame _ cut)
  simp at positive

theorem length_le_volume (run : (retryStream cfg guard).Exec (retryStream cfg guard).start ts s) :
    ts.length + s.potential cfg ≤
      4 * (cfg.policy.maxRetries + cfg.transientPolicy.maxAttempts + 1) + (ts.map volume).sum := by
  induction run with
  | nil =>
      simp only [retryStream, RetryTask.start, potential, TaskPc.weight, TaskPc.pending,
        SseFrameParser.new, budgetLeft, List.flatten_nil, List.length_nil, List.map_nil, List.sum_nil]
      omega
  | @snoc ts v a w e whole next ih =>
      have step := (step_of_nextTask next).potential_lt (pending_filled whole)
      simp only [List.length_append, List.length_singleton, List.map_append, List.map_singleton,
        List.sum_append, List.sum_singleton]
      omega

/-- Attempts are numbered by the requests made so far. -/
def RetryTask.attemptIndex (s : RetryTask) : Nat := s.attempt + s.transientAttempt

/-- What one attempt sends, counted in chunks and bytes. -/
def attemptVolume (k : Nat) (ts : List TaskTransition) : Nat :=
  ((ts.filter fun tr => tr.pre.attemptIndex = k).map volume).sum

theorem sum_attemptVolume {n : Nat} (bound : ∀ tr ∈ ts, tr.pre.attemptIndex < n) :
    ∑ k ∈ Finset.range n, attemptVolume k ts = (ts.map volume).sum := by
  induction ts with
  | nil => simp [attemptVolume]
  | cons tr rest ih =>
      have here := bound tr List.mem_cons_self
      have later := ih fun tr member => bound tr (List.mem_cons_of_mem _ member)
      have split : ∀ k, attemptVolume k (tr :: rest) =
          (if tr.pre.attemptIndex = k then volume tr else 0) + attemptVolume k rest := by
        intro k
        by_cases same : tr.pre.attemptIndex = k <;> simp [attemptVolume, same]
      rw [Finset.sum_congr rfl fun k _ => split k, Finset.sum_add_distrib, later,
        Finset.sum_ite_eq, if_pos (Finset.mem_range.mpr here), List.map_cons, List.sum_cons]

theorem attemptIndex_lt (run : (retryStream cfg guard).Exec (retryStream cfg guard).start ts s) :
    ∀ tr ∈ ts, tr.pre.attemptIndex <
      cfg.policy.maxRetries + cfg.transientPolicy.maxAttempts + 1 := by
  intro tr member
  obtain ⟨before, after, rfl, first, -⟩ := run.split_of_mem member
  have budget := withinBudget_of_run first
  have retries := budget.attempt
  have reforwards := budget.transientAttempt
  unfold attemptIndex
  omega

/-- Whatever the task waits for, it goes on with any answer. -/
def Responsive (cfg : RetryConfig) (s : RetryTask) : Prop :=
  ((nextTask cfg s .stalled).isSome = true ∧
    ∀ item late, (nextTask cfg s (.read item late)).isSome = true) ∨
  (∀ outcome, (nextTask cfg s (.respond outcome)).isSome = true) ∨
  ∀ connected, (nextTask cfg s (.step connected)).isSome = true

theorem responsive (active : ∀ ending, s.pc ≠ .finished ending) : Responsive cfg s := by
  cases pc : s.pc with
  | finished ending => exact absurd pc (active ending)
  | reading =>
      left
      refine ⟨by simp [nextTask, pc], ?_⟩
      intro item late
      cases item with
      | chunk bytes =>
          simp only [nextTask, pc]
          split <;> rfl
      | failed | eof => simp [nextTask, pc]
  | awaitRetry | awaitReforward =>
      right
      left
      intro outcome
      simp only [nextTask, pc]
      split <;> rfl
  | frames rest =>
      right
      right
      intro connected
      cases rest with
      | nil => simp [nextTask, pc]
      | cons frame rest =>
          simp only [nextTask, pc]
          split <;> rfl
  | flush outcome =>
      right
      right
      intro connected
      simp only [nextTask, pc]
      split <;> rfl
  | retry body =>
      right
      right
      intro connected
      simp only [nextTask, pc]
      split <;> rfl
  | notice | errorFrame | settle | closing =>
      right
      right
      intro connected
      simp [nextTask, pc]

/-- The sum over the usage frames of the last attempt, from its terminal frame on. -/
def acceptedUsage (cfg : RetryConfig) (ts : List TaskTransition) : Int :=
  usageTotal cfg (fromTerminal cfg (SseFrameParser.cutter.extract (attemptBytes cfg ts)).1)

/-- What a run of the task guarantees. -/
structure RetryStreamSpec (cfg : RetryConfig) (ts : List TaskTransition) (s : RetryTask) : Prop where
  retries : (Machine.events ts).countP TaskEvent.isRetry ≤ cfg.policy.maxRetries
  reforwards : (Machine.events ts).countP TaskEvent.isReforward ≤ cfg.transientPolicy.maxAttempts
  /-- Finite attempts make a finite run. -/
  bounded : ∀ size : Nat → Nat, (∀ k, attemptVolume k ts ≤ size k) →
    ts.length ≤ 4 * (cfg.policy.maxRetries + cfg.transientPolicy.maxAttempts + 1) +
      ∑ k ∈ Finset.range (cfg.policy.maxRetries + cfg.transientPolicy.maxAttempts + 1), size k
  responsive : (∃ ending, s.pc = .finished ending) ∨ Responsive cfg s
  /-- One attempt is accepted at most, and no request follows. -/
  lastAccepted : ∀ before tr after, ts = before ++ tr :: after → Accepts tr →
    ∀ later ∈ after, ¬ Accepts later ∧ ∀ e ∈ later.event, e.isRequest = false
  /-- The end of the body, while the client stays. -/
  ending : Connected ts → ∀ ending, s.pc = .finished ending → ending = .closed
  clean : Connected ts → ∀ ending, s.pc = .finished ending →
    ((¬ ∃ e ∈ Machine.events ts, e.isAbort = true) ↔ ∃ tr ∈ ts, Accepts tr)
  completed : Connected ts → ∀ ending, s.pc = .finished ending →
    (s.lifecycleGuard.completedNormally = true ↔ ∃ tr ∈ ts, Accepts tr)
  delivered : Connected ts → ∀ ending, s.pc = .finished ending → (∃ tr ∈ ts, Accepts tr) →
    s.lifecycleGuard.deliveredTokens = acceptedUsage cfg ts
  undelivered : Connected ts → (¬ ∃ tr ∈ ts, Accepts tr) → s.lifecycleGuard.deliveredTokens = 0

/-- The tokens that an accepted attempt reports add up to an `i64`. -/
def UsageFits (cfg : RetryConfig) (ts : List TaskTransition) (s : RetryTask) : Prop :=
  Connected ts → ∀ ending, s.pc = .finished ending → (∃ tr ∈ ts, Accepts tr) →
    cfg.arith.Fits (acceptedUsage cfg ts)

/-- The retry stream, for every body that is a JSON object or no JSON, every
    behaviour of the backend and every moment at which the watchdog, the deadline
    or the client steps in: it does what it should exactly if the tokens that an
    accepted attempt reports fit in an `i64`. -/
theorem retry_stream_spec {flowId : FlowId} {estimatedCost : Int} (plain : PlainBody cfg)
    (run : (retryStream cfg (.new flowId estimatedCost)).Exec
      (retryStream cfg (.new flowId estimatedCost)).start ts s) :
    RetryStreamSpec cfg ts s ↔ UsageFits cfg ts s := by
  have budget := withinBudget_of_run run
  have accepted := accepted_iff_of_run run
  have conclusion : Connected ts → ∀ ending, s.pc = .finished ending →
      ending = .closed ∧ s.streamOk = s.accepted ∧
        s.lifecycleGuard.completedNormally = s.streamOk := by
    intro connected ending over_
    have concluded := concluded_of_run rfl connected run
    refine ⟨?_, concluded.outcome (by rw [over_]; rfl), concluded.completed⟩
    cases ending with
    | closed => rfl
    | disconnected => exact absurd over_ concluded.present
    | panicked => exact absurd over_ (not_panicked plain run)
  have stored : Connected ts → ∀ ending, s.pc = .finished ending → (∃ tr ∈ ts, Accepts tr) →
      s.lifecycleGuard.deliveredTokens = cfg.arith.store (acceptedUsage cfg ts) := by
    intro connected ending over_ some_
    obtain ⟨-, ok, -⟩ := conclusion connected ending over_
    have streamOk : s.streamOk = true := ok.trans (accepted.mpr some_)
    have view := extract_attempt run (.inr streamOk)
    have idle : s.pc.pending = [] := by rw [over_]; rfl
    rw [idle, List.append_nil] at view
    rw [acceptedUsage, view]
    exact (counted_of_run connected run).total (.inr streamOk)
  refine ⟨fun spec connected ending over_ some_ => ?_, fun fits => ?_⟩
  · rw [← I64Arith.store_eq_self_iff, ← stored connected ending over_ some_]
    exact spec.delivered connected ending over_ some_
  constructor
  · exact le_trans (Nat.le_of_add_right_le budget.retries) budget.attempt
  · exact budget.reforwards.trans_le budget.transientAttempt
  · intro size finite
    have whole := length_le_volume run
    rw [← sum_attemptVolume (attemptIndex_lt run)] at whole
    have parts := Finset.sum_le_sum fun k (_ : k ∈ Finset.range
      (cfg.policy.maxRetries + cfg.transientPolicy.maxAttempts + 1)) => finite k
    omega
  · by_cases over_ : ∃ ending, s.pc = .finished ending
    · exact .inl over_
    · exact .inr (responsive fun ending here => over_ ⟨ending, here⟩)
  · rintro before tr after rfl accepts
    obtain ⟨first, next, second⟩ := run.split_at
    have settled := (step_of_nextTask next).settled (settled_of_run first)
    exact (accepted_of_exec settled accepts.2 second).2
  · intro connected ending over_
    exact (conclusion connected ending over_).1
  · intro connected ending over_
    obtain ⟨rfl, ok, -⟩ := conclusion connected ending over_
    rw [abort_iff connected run, ← accepted, ← ok]
    simp [over_]
  · intro connected ending over_
    obtain ⟨-, ok, completed⟩ := conclusion connected ending over_
    rw [completed, ok, accepted]
  · intro connected ending over_ some_
    rw [stored connected ending over_ some_]
    exact (cfg.arith.store_eq_self_iff).mpr (fits connected ending over_ some_)
  · intro connected none_
    apply (counted_of_run connected run).open_
    rw [Bool.eq_false_iff]
    exact fun yes => none_ (accepted.mp yes)

end

/-- A degenerate turn, its retry, and an accepted turn of five tokens. -/
def retriedTurn : List TaskAction :=
  [.read (.chunk (sampleEvent sampleStop)) false, .step true, .step true, .step true,
    .respond (.response 200 (.ok [])), .read (.chunk (sampleEvent sampleContent)) false, .step true,
    .step true, .read (.chunk (sampleEvent sampleStop ++ sampleEvent sampleUsage)) false, .step true,
    .step true, .step true, .read .eof false, .step true, .step true, .step true]

theorem retry_stream_spec_retried :
    (retrySample.trace retriedTurn).length = 16 ∧
      (retrySample.after retriedTurn).lifecycleGuard.deliveredTokens = 5 ∧
        RetryStreamSpec .sample (retrySample.trace retriedTurn) (retrySample.after retriedTurn) := by
  obtain ⟨size, charged, total⟩ : (retrySample.trace retriedTurn).length = 16 ∧
      (retrySample.after retriedTurn).lifecycleGuard.deliveredTokens = 5 ∧
        acceptedUsage .sample (retrySample.trace retriedTurn) = 5 := by
    decide +kernel
  refine ⟨size, charged, (retry_stream_spec ?_ (retrySample.exec_after retriedTurn)).mpr ?_⟩
  · intro value found
    exact ⟨[], (Option.some.inj found).symm⟩
  · intro _ _ _ _
    change InI64 _
    rw [total]
    decide

def sampleHugeUsage : String := "\x7b\"usage\":\x7b\"completion_tokens\":9223372036854775807\x7d\x7d"

/-- The sample that reads a usage frame of 2^63 - 1 tokens as well. -/
def RetryConfig.sampleHuge : RetryConfig :=
  { RetryConfig.sample with
    fromSlice := fun bytes =>
      if bytes = ascii sampleHugeUsage then
        some (.object [("usage", .object [("completion_tokens", .number (.posInt 9223372036854775807))])])
      else sampleReader bytes }

/-- An accepted turn with two usage frames. -/
def hugeTurn : List TaskAction :=
  [.read (.chunk (sampleEvent sampleContent)) false, .step true, .step true,
    .read (.chunk (sampleEvent sampleStop ++ sampleEvent sampleHugeUsage ++ sampleEvent sampleUsage))
      false,
    .step true, .step true, .step true, .step true, .read .eof false, .step true, .step true, .step true]

/-- The sum of 2^63 - 1 and 5 tokens wraps. -/
theorem delivered_tokens_wrap :
    let m := retryStream .sampleHuge (.new ⟨"f"⟩ 100)
    (m.trace hugeTurn).length = 12 ∧
      (m.after hugeTurn).lifecycleGuard.deliveredTokens = -9223372036854775804 ∧
      acceptedUsage .sampleHuge (m.trace hugeTurn) = 9223372036854775812 ∧
      ¬ RetryStreamSpec .sampleHuge (m.trace hugeTurn) (m.after hugeTurn) := by
  intro m
  obtain ⟨size, charged, total, accepted, idle⟩ : (m.trace hugeTurn).length = 12 ∧
      (m.after hugeTurn).lifecycleGuard.deliveredTokens = -9223372036854775804 ∧
      acceptedUsage .sampleHuge (m.trace hugeTurn) = 9223372036854775812 ∧
      (m.after hugeTurn).accepted = true ∧ (m.after hugeTurn).pc.weight = 0 := by
    decide +kernel
  obtain ⟨ending, over_⟩ := finished_of_weight idle
  refine ⟨size, charged, total, fun spec => ?_⟩
  have connected : Connected (m.trace hugeTurn) := fun tr member =>
    Machine.action_of_trace (P := (· ≠ .step false)) (by simp [hugeTurn]) member
  have delivered := spec.delivered connected ending over_
    ((accepted_iff_of_run (m.exec_after hugeTurn)).mp accepted)
  rw [charged, total] at delivered
  exact absurd delivered (by decide)

end TinyLlb
