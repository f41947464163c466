import TinyLlb.Stream.AttemptView

/-! # Budgets, acceptance and the end of a retry stream

The two counters of the task are the requests it has made, and they stay within
their budgets; with them every run is bounded by what the backend sends. Once a
terminal frame is accepted, no request follows, and the end of the body, the
lifecycle and the delivered tokens all follow from that one decision.
-/

namespace TinyLlb

open RetryTask

namespace TaskEvent

/-- A premature-stop re-send. -/
def isRetry : TaskEvent → Bool
  | retried _ => true
  | _ => false

/-- A re-send of the unmodified body. -/
def isReforward : TaskEvent → Bool
  | reforwarded _ => true
  | _ => false

def isRequest (e : TaskEvent) : Bool := e.isRetry || e.isReforward

def isAbort : TaskEvent → Bool
  | abort => true
  | _ => false

end TaskEvent

/-- A premature-stop retry that is counted and not sent yet. -/
def TaskPc.retryDue : TaskPc → Nat
  | notice _ | retry _ => 1
  | _ => 0

section

variable {cfg : RetryConfig} {guard : LifecycleGuard} {s s' : RetryTask} {action : TaskAction}
  {event : Option TaskEvent} {ts : List TaskTransition}

theorem lt_of_mayReforward (may : s.mayReforward cfg = true) :
    s.sawAnything = false ∧ s.transientAttempt < cfg.transientPolicy.maxAttempts := by
  simp only [mayReforward, Bool.and_eq_true, Bool.not_eq_true', decide_eq_true_eq] at may
  exact ⟨may.1.1, may.2⟩

theorem reforward_of_settle (pc : s.pc = .settle .eof) (open_ : s.accepted = false)
    (may : s.mayReforward cfg = true) (next : nextTask cfg s action = some (s', event)) :
    ∃ e ∈ event, e.isReforward = true := by
  have nothing := (lt_of_mayReforward may).1
  cases action with
  | step c =>
      simp only [nextTask, pc, RetryTask.settle, open_, nothing, may, Option.some.injEq] at next
      cases next
      exact ⟨_, rfl, rfl⟩
  | stalled | read | respond => simp [nextTask, pc] at next

theorem lt_of_premature {reason : String} (premature : s.premature cfg reason = true) :
    s.attempt < cfg.policy.maxRetries ∧ cfg.canRetry = true ∧ s.sawAnything = false := by
  simp only [RetryTask.premature, degenerate, Bool.and_eq_true, Bool.not_eq_true',
    decide_eq_true_eq] at premature
  exact ⟨premature.1.2, premature.2, premature.1.1.2⟩

/-- The counters count the requests, and stay within the budgets. -/
structure WithinBudget (cfg : RetryConfig) (es : List TaskEvent) (s : RetryTask) : Prop where
  retries : es.countP TaskEvent.isRetry + s.pc.retryDue ≤ s.attempt
  reforwards : es.countP TaskEvent.isReforward = s.transientAttempt
  attempt : s.attempt ≤ cfg.policy.maxRetries
  transientAttempt : s.transientAttempt ≤ cfg.transientPolicy.maxAttempts

theorem WithinBudget.quiet {es : List TaskEvent} {t : RetryTask} (held : WithinBudget cfg es s)
    {e : Option TaskEvent} (silent : ∀ x ∈ e, x.isRequest = false) (attempt : t.attempt = s.attempt)
    (transientAttempt : t.transientAttempt = s.transientAttempt)
    (due : t.pc.retryDue ≤ s.pc.retryDue) : WithinBudget cfg (es ++ e.toList) t := by
  have none_ : ∀ p : TaskEvent → Bool, (∀ x, p x = true → x.isRequest = true) →
      e.toList.countP p = 0 := by
    intro p request
    rw [List.countP_eq_zero]
    intro x member counted
    have no := silent x (Option.mem_toList.mp member)
    rw [request x counted] at no
    cases no
  have retries := held.retries
  have noRetry := none_ TaskEvent.isRetry (by simp +contextual [TaskEvent.isRequest])
  have noReforward := none_ TaskEvent.isReforward (by simp +contextual [TaskEvent.isRequest])
  constructor
  · rw [List.countP_append, noRetry, attempt]
    omega
  · rw [List.countP_append, noReforward, transientAttempt]
    exact held.reforwards
  · rw [attempt]
    exact held.attempt
  · rw [transientAttempt]
    exact held.transientAttempt

theorem WithinBudget.reforward {es : List TaskEvent} {t : RetryTask} (held : WithinBudget cfg es s)
    (attempt : t.attempt = s.attempt) (transientAttempt : t.transientAttempt = s.transientAttempt)
    (due : t.mayReforward cfg = true) (frame : Option Bytes) :
    WithinBudget cfg (es ++ (t.reforward cfg frame).2.toList) (t.reforward cfg frame).1 := by
  obtain ⟨-, room⟩ := lt_of_mayReforward due
  have retries := held.retries
  constructor
  · simp only [RetryTask.reforward, Option.toList, List.countP_append, TaskPc.retryDue, attempt]
    simp only [List.countP_singleton, TaskEvent.isRetry, Bool.false_eq_true, if_false]
    omega
  · simp [RetryTask.reforward, TaskEvent.isReforward, held.reforwards, transientAttempt]
  · exact attempt.trans_le held.attempt
  · exact room

theorem TaskStep.withinBudget {es : List TaskEvent} (step : TaskStep cfg s action event s')
    (held : WithinBudget cfg es s) : WithinBudget cfg (es ++ event.toList) s' := by
  cases step with
  | @reforwardedFrame c frame rest pc open_ on =>
      simp only [reforwardsOn, Bool.and_eq_true] at on
      exact held.reforward (t := s.noted cfg frame) rfl rfl on.2 _
  | reforwardedEnd pc open_ may => exact held.reforward rfl rfl may none
  | premature pc open_ off terminal premature | panicked pc open_ off terminal premature =>
      have room := (lt_of_premature premature).1
      have retries := held.retries
      refine ⟨?_, ?_, room, held.transientAttempt⟩
      · simp only [pc, TaskPc.retryDue, Option.toList, List.append_nil, detectPrematureStop, noted,
          note] at retries ⊢
        omega
      · simpa [detectPrematureStop, noted, note] using held.reforwards
  | retried pc =>
      have retries := held.retries
      refine ⟨?_, by simpa [TaskEvent.isReforward] using held.reforwards, held.attempt,
        held.transientAttempt⟩
      simpa [pc, TaskPc.retryDue, TaskEvent.isRetry] using retries
  | gone attempt transientAttempt =>
      exact held.quiet (by simp) attempt transientAttempt (Nat.zero_le _)
  | passed | accepted =>
      exact held.quiet (by simp [TaskEvent.isRequest, TaskEvent.isRetry, TaskEvent.isReforward])
        (countUsage_attempt _ _ _) (countUsage_transientAttempt _ _ _) (Nat.zero_le _)
  | noticed pc =>
      exact held.quiet (by simp [TaskEvent.isRequest, TaskEvent.isRetry, TaskEvent.isReforward])
        rfl rfl (by simp [pc, TaskPc.retryDue])
  | closed pc =>
      refine held.quiet ?_ rfl rfl (Nat.zero_le _)
      intro x member
      split at member
      · cases member
      · cases member
        rfl
  | @reforwardFailed outcome frame pc =>
      refine held.quiet (by simp) rfl rfl ?_
      cases frame <;> exact Nat.zero_le _
  | _ =>
      exact held.quiet (by simp [TaskEvent.isRequest, TaskEvent.isRetry, TaskEvent.isReforward])
        rfl rfl (Nat.zero_le _)

theorem withinBudget_of_run (run : (retryStream cfg guard).Exec (retryStream cfg guard).start ts s) :
    WithinBudget cfg (Machine.events ts) s := by
  induction run with
  | nil => exact ⟨Nat.le_refl _, rfl, Nat.zero_le _, Nat.zero_le _⟩
  | snoc whole next ih =>
      rw [Machine.events_append, Machine.events_singleton]
      exact (step_of_nextTask next).withinBudget ih

/-- An accepted stream is being read to its end or is over. -/
def Settled (s : RetryTask) : Prop :=
  s.accepted = true → s.pc.inAttempt = true ∨ s.pc.leaving = true

theorem Settled.open_ {pc : TaskPc} (held : Settled s) (here : s.pc = pc)
    (elsewhere : pc.inAttempt = false) (active : pc.leaving = false) : s.accepted = false := by
  rw [Bool.eq_false_iff]
  intro accepted
  have settled := held accepted
  rw [here, elsewhere, active] at settled
  simp at settled

theorem TaskStep.settled (step : TaskStep cfg s action event s') (held : Settled s) : Settled s' := by
  intro accepted
  cases step with
  | reforwardedFrame pc open_ | premature pc open_ | reforwardedEnd pc open_ =>
      cases open_.symm.trans accepted
  | noticed pc | retried pc => cases (held.open_ pc rfl rfl).symm.trans accepted
  | reforwardFailed pc => cases (held.open_ pc rfl rfl).symm.trans accepted
  | restarted => cases accepted
  | stalled | late | fed | ended | drained | passed | accepted | dropped | forwarded
  | flushedNothing | flushed => exact .inl rfl
  | gone | panicked | errorFrame | completed | abandoned | exhausted | closed | unwritable
  | retryFailed =>
      exact .inr rfl

theorem TaskStep.after_accepted (step : TaskStep cfg s action event s') (held : Settled s)
    (accepted : s.accepted = true) :
    s'.accepted = true ∧ ∀ e ∈ event, e.isRequest = false := by
  cases step with
  | reforwardedFrame pc open_ | premature pc open_ | panicked pc open_ | accepted pc open_
  | dropped pc open_ | forwarded pc open_ | abandoned pc open_ | reforwardedEnd pc open_
  | exhausted pc open_ => cases open_.symm.trans accepted
  | noticed pc | retried pc | errorFrame pc | unwritable pc | retryFailed pc | reforwardFailed pc =>
      cases (held.open_ pc rfl rfl).symm.trans accepted
  | restarted pc =>
      rcases pc with pc | ⟨frame, pc⟩
      · cases (held.open_ pc rfl rfl).symm.trans accepted
      · cases (held.open_ pc rfl rfl).symm.trans accepted
  | gone attempt transientAttempt ok parser kept =>
      exact ⟨kept accepted, by simp⟩
  | passed => exact ⟨(countUsage_accepted _ _ _).trans accepted, by
      simp [TaskEvent.isRequest, TaskEvent.isRetry, TaskEvent.isReforward]⟩
  | closed =>
      refine ⟨accepted, ?_⟩
      intro e member
      split at member
      · cases member
      · cases member
        rfl
  | stalled | late | fed | ended | drained | flushedNothing | flushed | completed =>
      exact ⟨accepted, by simp [TaskEvent.isRequest, TaskEvent.isRetry, TaskEvent.isReforward]⟩

theorem settled_of_run (run : (retryStream cfg guard).Exec (retryStream cfg guard).start ts s) :
    Settled s := by
  refine run.invariant (I := Settled) ?_ ?_
  · intro accepted
    cases accepted
  · intro v a w e held next
    exact (step_of_nextTask next).settled held

/-- The transition accepts the attempt. -/
def Accepts (tr : TaskTransition) : Prop := tr.pre.accepted = false ∧ tr.post.accepted = true

theorem accepted_of_exec {t : RetryTask} (held : Settled s) (accepted : s.accepted = true)
    (run : (retryStream cfg guard).Exec s ts t) :
    t.accepted = true ∧ ∀ tr ∈ ts, ¬ Accepts tr ∧ ∀ e ∈ tr.event, e.isRequest = false := by
  have kept : t.accepted = true ∧ Settled t ∧
      ∀ tr ∈ ts, ¬ Accepts tr ∧ ∀ e ∈ tr.event, e.isRequest = false := by
    induction run with
    | nil => exact ⟨accepted, held, by simp⟩
    | snoc whole next ih =>
        obtain ⟨before, settled, earlier⟩ := ih
        have step := step_of_nextTask next
        obtain ⟨after, silent⟩ := step.after_accepted settled before
        refine ⟨after, step.settled settled, ?_⟩
        intro tr member
        rcases List.mem_append.mp member with first | last
        · exact earlier tr first
        · obtain rfl := List.mem_singleton.mp last
          exact ⟨fun accepts => by simp [Accepts, before] at accepts, silent⟩
  exact ⟨kept.1, kept.2.2⟩

/-- Some step of the run accepted exactly where the run ends accepted. -/
theorem accepted_iff_of_run
    (run : (retryStream cfg guard).Exec (retryStream cfg guard).start ts s) :
    s.accepted = true ↔ ∃ tr ∈ ts, Accepts tr := by
  constructor
  · intro accepted
    induction run with
    | nil => cases accepted
    | @snoc ts v a w e whole next ih =>
        by_cases before : v.accepted = true
        · obtain ⟨tr, member, accepts⟩ := ih before
          exact ⟨tr, List.mem_append_left _ member, accepts⟩
        · exact ⟨⟨v, a, e, w⟩, by simp, Bool.eq_false_iff.mpr before, accepted⟩
  · rintro ⟨tr, member, accepts⟩
    obtain ⟨before, after, rfl, first, second⟩ := run.split_of_mem member
    have step := step_of_nextTask (run.step_of_mem member)
    have settled := step.settled (settled_of_run first)
    exact (accepted_of_exec settled accepts.2 second).1

/-- The client takes everything it is sent. -/
def Connected (ts : List TaskTransition) : Prop := ∀ tr ∈ ts, tr.action ≠ .step false

theorem countUsage_completedNormally (s : RetryTask) (frame : Bytes) (hasUsage : Bool) :
    (s.countUsage cfg frame hasUsage).lifecycleGuard.completedNormally =
      s.lifecycleGuard.completedNormally := by
  unfold countUsage
  dsimp only
  split <;> rfl

/-- How the task leaves its loop, and what the lifecycle is told. -/
structure Concluded (s : RetryTask) : Prop where
  outcome : s.pc.leaving = true → s.streamOk = s.accepted
  active : s.streamOk = true → s.pc.leaving = true
  completed : s.lifecycleGuard.completedNormally = s.streamOk
  present : s.pc ≠ .finished .disconnected

theorem Concluded.notOk {pc : TaskPc} (held : Concluded s) (here : s.pc = pc)
    (active : pc.leaving = false) : s.streamOk = false := by
  rw [Bool.eq_false_iff]
  intro ok
  have left := held.active ok
  rw [here, active] at left
  cases left

theorem TaskStep.concluded (step : TaskStep cfg s action event s') (there : action ≠ .step false)
    (settled : Settled s) (held : Concluded s) : Concluded s' := by
  have active := step.streamOk_leaving held.active
  cases step with
  | gone => exact absurd rfl there
  | completed pc accepted => exact ⟨fun _ => accepted.symm, active, rfl, by simp⟩
  | abandoned pc open_ | exhausted pc open_ | panicked pc open_ =>
      exact ⟨fun _ => (held.notOk pc rfl).trans open_.symm, active, held.completed, by simp⟩
  | errorFrame pc | unwritable pc | retryFailed pc =>
      have open_ := settled.open_ pc rfl rfl
      exact ⟨fun _ => (held.notOk pc rfl).trans open_.symm, active, held.completed, by simp⟩
  | @reforwardFailed outcome frame pc =>
      have open_ := settled.open_ pc rfl rfl
      refine ⟨fun _ => (held.notOk pc rfl).trans open_.symm, active, held.completed, ?_⟩
      cases frame <;> simp [afterFailedReforward]
  | closed pc =>
      exact ⟨fun _ => held.outcome (by rw [pc]; rfl), active, held.completed, by simp⟩
  | passed =>
      refine ⟨by simp [TaskPc.leaving], active, ?_, by simp⟩
      simp only [countUsage_completedNormally, countUsage_streamOk]
      exact held.completed
  | accepted =>
      refine ⟨by simp [TaskPc.leaving], active, ?_, by simp⟩
      simp only [countUsage_completedNormally, countUsage_streamOk]
      exact held.completed
  | _ => exact ⟨by simp [TaskPc.leaving, reforward, restart], active, held.completed, by
      simp [reforward, restart]⟩

theorem concluded_of_run (fresh : guard.completedNormally = false) (connected : Connected ts)
    (run : (retryStream cfg guard).Exec (retryStream cfg guard).start ts s) : Concluded s := by
  have both : Settled s ∧ Concluded s := by
    refine run.invariant_within (I := fun s => Settled s ∧ Concluded s) connected ?_ ?_
    · refine ⟨?_, ?_, ?_, fresh, ?_⟩
      · intro accepted
        cases accepted
      · intro left
        cases left
      · intro ok
        cases ok
      · simp [retryStream, RetryTask.start]
    · rintro v a w e ⟨settled, held⟩ there next
      have step := step_of_nextTask next
      exact ⟨step.settled settled, step.concluded there settled held⟩
  exact both.2

/-- An object or no JSON at all: the retry body can be built. -/
def PlainBody (cfg : RetryConfig) : Prop :=
  ∀ value, cfg.forwardedValue = some value → ∃ members, value = .object members

theorem retryBody_isSome (plain : PlainBody cfg) (can : cfg.canRetry = true) :
    s.retryBody cfg ≠ none := by
  simp only [RetryConfig.canRetry, Bool.and_eq_true] at can
  obtain ⟨value, found⟩ := Option.isSome_iff_exists.mp can.1.1
  obtain ⟨members, rfl⟩ := plain value found
  simp [retryBody, found, bumpTemperature, Json.set]

theorem not_panicked (plain : PlainBody cfg)
    (run : (retryStream cfg guard).Exec (retryStream cfg guard).start ts s) :
    s.pc ≠ .finished .panicked := by
  refine run.invariant (I := fun s => s.pc ≠ .finished .panicked) ?_ ?_
  · simp [retryStream, RetryTask.start]
  · intro v a w e held next
    have step := step_of_nextTask next
    cases step with
    | panicked pc open_ off terminal premature failed =>
        exact absurd failed (retryBody_isSome plain (lt_of_premature premature).2.1)
    | @reforwardFailed outcome frame => cases frame <;> simp [afterFailedReforward]
    | _ => simp [reforward, restart]

theorem TaskStep.not_finished (step : TaskStep cfg s action event s') (ending : Ending) :
    s.pc ≠ .finished ending := by
  intro over_
  cases step with
  | gone _ _ _ _ _ active => exact active ending over_
  | restarted pc =>
      rcases pc with pc | ⟨frame, pc⟩
      · cases pc.symm.trans over_
      · cases pc.symm.trans over_
  | stalled pc | late pc | fed pc | ended pc | drained pc | passed pc | reforwardedFrame pc
  | premature pc | panicked pc | accepted pc | dropped pc | forwarded pc | noticed pc | retried pc
  | errorFrame pc | flushedNothing pc | flushed pc | completed pc | abandoned pc | reforwardedEnd pc
  | exhausted pc | closed pc | unwritable pc | retryFailed pc | reforwardFailed pc =>
      cases pc.symm.trans over_

/-- The error item ends the body exactly where the stream was not accepted. -/
theorem abort_iff (connected : Connected ts)
    (run : (retryStream cfg guard).Exec (retryStream cfg guard).start ts s) :
    (∃ e ∈ Machine.events ts, e.isAbort = true) ↔ s.pc = .finished .closed ∧ s.streamOk = false := by
  induction run with
  | nil => simp [retryStream, RetryTask.start]
  | @snoc ts v a w e whole next ih =>
      have step := step_of_nextTask next
      have earlier : ¬ ∃ x ∈ Machine.events ts, x.isAbort = true := by
        rw [ih fun tr member => connected tr (List.mem_append_left _ member)]
        rintro ⟨over_, -⟩
        exact step.not_finished .closed over_
      have there : a ≠ .step false := connected ⟨v, a, e, w⟩ (by simp)
      have split : (∃ x ∈ Machine.events (ts ++ [⟨v, a, e, w⟩]), x.isAbort = true) ↔
          ∃ x ∈ e, x.isAbort = true := by
        simp only [Machine.events_append, Machine.events_singleton, List.mem_append,
          Option.mem_toList]
        constructor
        · rintro ⟨x, before | now, abort⟩
          · exact absurd ⟨x, before, abort⟩ earlier
          · exact ⟨x, now, abort⟩
        · rintro ⟨x, now, abort⟩
          exact ⟨x, .inr now, abort⟩
      rw [split]
      cases step with
      | gone => exact absurd rfl there
      | @closed c pc =>
          obtain rfl : c = true := by simpa using there
          cases ok : v.streamOk <;> simp [TaskEvent.isAbort]
      | @reforwardFailed outcome frame => cases frame <;> simp [afterFailedReforward]
      | _ => simp [TaskEvent.isAbort, reforward, restart]

/-- The events from the first one with a finish reason on. -/
def fromTerminal (cfg : RetryConfig) (frames : List Bytes) : List Bytes :=
  frames.dropWhile fun frame => (cfg.classify frame).finishReason.isNone

/-- What the usage frames among the events count for. -/
def usageTotal (cfg : RetryConfig) (frames : List Bytes) : Int :=
  (frames.map fun frame =>
    if (cfg.classify frame).hasUsage then completionTokensFromFrame cfg.fromSlice frame else 0).sum

theorem fromTerminal_snoc (cfg : RetryConfig) (frames : List Bytes) (frame : Bytes) :
    fromTerminal cfg (frames ++ [frame]) =
      if fromTerminal cfg frames = [] then
        if (cfg.classify frame).finishReason.isNone then [] else [frame]
      else fromTerminal cfg frames ++ [frame] := by
  unfold fromTerminal
  rw [List.dropWhile_append]
  simp only [List.isEmpty_iff, List.dropWhile_cons, List.dropWhile_nil]

theorem usageTotal_snoc (cfg : RetryConfig) (frames : List Bytes) (frame : Bytes) :
    usageTotal cfg (frames ++ [frame]) = usageTotal cfg frames +
      if (cfg.classify frame).hasUsage then completionTokensFromFrame cfg.fromSlice frame else 0 := by
  simp [usageTotal]

theorem countUsage_deliveredTokens {total : Int} {frame : Bytes}
    (before : s.lifecycleGuard.deliveredTokens = cfg.arith.store total) :
    (s.countUsage cfg frame (cfg.classify frame).hasUsage).lifecycleGuard.deliveredTokens =
      cfg.arith.store (total + if (cfg.classify frame).hasUsage then
        completionTokensFromFrame cfg.fromSlice frame else 0) := by
  have nonneg := completionTokensFromFrame_nonneg cfg.fromSlice frame
  unfold countUsage
  dsimp only
  split
  · rename_i counted
    rw [if_pos counted.1]
    change cfg.arith.store (s.lifecycleGuard.deliveredTokens + _) = _
    rw [before, I64Arith.store_store_add]
  · rename_i uncounted
    rw [before]
    split
    · rename_i usage
      have none_ : completionTokensFromFrame cfg.fromSlice frame = 0 := by
        by_contra some_
        exact uncounted ⟨usage, by omega⟩
      rw [none_, Int.add_zero]
    · rw [Int.add_zero]

/-- The delivered tokens are those of the attempt from its terminal frame on. -/
structure Counted (cfg : RetryConfig) (frames : List Bytes) (s : RetryTask) : Prop where
  open_ : s.accepted = false → s.lifecycleGuard.deliveredTokens = 0
  terminal : s.pc.inAttempt = true ∨ s.streamOk = true →
    (s.accepted = true ↔ fromTerminal cfg frames ≠ [])
  total : s.pc.inAttempt = true ∨ s.streamOk = true →
    s.lifecycleGuard.deliveredTokens = cfg.arith.store (usageTotal cfg (fromTerminal cfg frames))

theorem store_zero (arith : I64Arith) : arith.store 0 = 0 := by cases arith <;> rfl

theorem Counted.none_ {frames : List Bytes} (held : Counted cfg frames s)
    (here : s.pc.inAttempt = true) (open_ : s.accepted = false) : fromTerminal cfg frames = [] := by
  by_contra some_
  cases open_.symm.trans ((held.terminal (.inl here)).mpr some_)

theorem Counted.quiet {frames : List Bytes} {t : RetryTask} (held : Counted cfg frames s)
    (accepted : t.accepted = s.accepted)
    (delivered : t.lifecycleGuard.deliveredTokens = s.lifecycleGuard.deliveredTokens)
    (here : t.pc.inAttempt = true ∨ t.streamOk = true → s.pc.inAttempt = true ∨ s.streamOk = true) :
    Counted cfg frames t := by
  constructor
  · intro open_
    rw [delivered]
    exact held.open_ (accepted ▸ open_)
  · intro inside
    rw [accepted]
    exact held.terminal (here inside)
  · intro inside
    rw [delivered]
    exact held.total (here inside)

theorem Counted.away {frames frames' : List Bytes} {t : RetryTask} (held : Counted cfg frames s)
    (open_ : s.accepted = false)
    (delivered : t.lifecycleGuard.deliveredTokens = s.lifecycleGuard.deliveredTokens)
    (elsewhere : t.pc.inAttempt = false) (notOk : t.streamOk = false) : Counted cfg frames' t := by
  refine ⟨fun _ => delivered.trans (held.open_ open_), ?_, ?_⟩
  · intro inside
    simp [elsewhere, notOk] at inside
  · intro inside
    simp [elsewhere, notOk] at inside

theorem TaskStep.counted {frames : List Bytes} (step : TaskStep cfg s action event s')
    (there : action ≠ .step false) (settled : Settled s) (concluded : Concluded s)
    (held : Counted cfg frames s) :
    Counted cfg (handleOn frames ⟨s, action, event, s'⟩) s' := by
  have idle : ∀ {c : Bool}, action = .step c → (∀ frame rest, s.pc ≠ .frames (frame :: rest)) →
      handleOn frames ⟨s, action, event, s'⟩ = frames := by
    rintro c rfl other
    cases pc : s.pc with
    | frames rest =>
        cases rest with
        | nil => simp [handleOn, handled?, pc]
        | cons frame rest => exact absurd pc (other frame rest)
    | _ => simp [handleOn, handled?, pc]
  cases step with
  | gone => exact absurd rfl there
  | stalled pc | late pc | fed pc | ended pc =>
      simp only [handleOn, handled?, pc, Option.toList, List.append_nil]
      exact held.quiet rfl rfl fun _ => .inl (by rw [pc]; rfl)
  | drained pc | flushedNothing pc | flushed pc | completed pc =>
      rw [idle rfl (by simp [pc])]
      exact held.quiet rfl rfl fun _ => .inl (by rw [pc]; rfl)
  | closed pc =>
      rw [idle rfl (by simp [pc])]
      exact held.quiet rfl rfl fun inside => .inr (by simpa [TaskPc.inAttempt] using inside)
  | restarted pc success =>
      have open_ : s.accepted = false := by
        rcases pc with pc | ⟨frame, pc⟩
        · exact settled.open_ pc rfl rfl
        · exact settled.open_ pc rfl rfl
      have zero := held.open_ open_
      simp only [handleOn, success, if_true]
      refine ⟨fun _ => zero, fun _ => by simp [restart, fromTerminal], fun _ => ?_⟩
      exact zero.trans (store_zero cfg.arith).symm
  | reforwardedFrame pc open_ | premature pc open_ | panicked pc open_ | abandoned pc open_
  | reforwardedEnd pc open_ | exhausted pc open_ =>
      exact held.away open_ rfl rfl (concluded.notOk pc rfl)
  | noticed pc | retried pc | errorFrame pc | unwritable pc | retryFailed pc =>
      exact held.away (settled.open_ pc rfl rfl) rfl rfl (concluded.notOk pc rfl)
  | @reforwardFailed outcome frame pc =>
      refine held.away (settled.open_ pc rfl rfl) rfl ?_ (concluded.notOk pc rfl)
      cases frame <;> rfl
  | @dropped c frame rest pc open_ off inner | @forwarded frame rest pc open_ off inner =>
      have inside : s.pc.inAttempt = true := by rw [pc]; rfl
      have nothing : fromTerminal cfg (frames ++ [frame]) = [] := by
        simp [fromTerminal_snoc, held.none_ inside open_, inner]
      have zero := held.open_ open_
      simp only [handleOn, handled?, pc, Option.toList]
      refine ⟨fun _ => zero, fun _ => ?_, fun _ => ?_⟩
      · simp [noted, note, open_, nothing]
      · rw [nothing]
        exact zero.trans (store_zero cfg.arith).symm
  | @accepted frame rest reason pc open_ off terminal =>
      have inside : s.pc.inAttempt = true := by rw [pc]; rfl
      have first : fromTerminal cfg (frames ++ [frame]) = [frame] := by
        simp [fromTerminal_snoc, held.none_ inside open_, terminal]
      have zero : ((s.noted cfg frame).accept cfg reason).lifecycleGuard.deliveredTokens =
          cfg.arith.store 0 := (held.open_ open_).trans (store_zero cfg.arith).symm
      simp only [handleOn, handled?, pc, Option.toList]
      refine ⟨?_, fun _ => ?_, fun _ => ?_⟩
      · intro rejected
        rw [countUsage_accepted] at rejected
        cases rejected
      · simp [first, accept]
      · rw [first, usageTotal, List.map_singleton, List.sum_singleton, ← Int.zero_add (ite _ _ _)]
        exact countUsage_deliveredTokens zero
  | @passed frame rest pc accepted =>
      have inside : s.pc.inAttempt = true := by rw [pc]; rfl
      have some_ := (held.terminal (.inl inside)).mp accepted
      have more : fromTerminal cfg (frames ++ [frame]) = fromTerminal cfg frames ++ [frame] := by
        rw [fromTerminal_snoc, if_neg some_]
      simp only [handleOn, handled?, pc, Option.toList]
      refine ⟨?_, fun _ => ?_, fun _ => ?_⟩
      · intro rejected
        rw [countUsage_accepted, accepted] at rejected
        cases rejected
      · simp [more, accepted]
      · rw [more, usageTotal_snoc]
        exact countUsage_deliveredTokens (held.total (.inl inside))

theorem counted_of_run {flowId : FlowId} {estimatedCost : Int} (connected : Connected ts)
    (run : (retryStream cfg (.new flowId estimatedCost)).Exec
      (retryStream cfg (.new flowId estimatedCost)).start ts s) :
    Counted cfg (handledFrames ts) s := by
  induction run with
  | nil =>
      refine ⟨fun _ => rfl, fun _ => by simp [retryStream, RetryTask.start, handledFrames, fromTerminal],
        fun _ => (store_zero cfg.arith).symm⟩
  | @snoc ts v a w e whole next ih =>
      have earlier : Connected ts := fun tr member => connected tr (List.mem_append_left _ member)
      have there : a ≠ .step false := connected ⟨v, a, e, w⟩ (by simp)
      rw [handledFrames_snoc]
      exact (step_of_nextTask next).counted there (settled_of_run whole)
        (concluded_of_run rfl earlier whole) (ih earlier)

end

end TinyLlb
