import TinyLlb.Stream.GivingUp
import TinyLlb.Stream.RetryTermination

/-! # What a re-forward answers to

The unmodified body should be sent again only after a transient failure: a context
error below the slot capacity, or a connection that died before anything was said.
Before the stream each outcome is classified. Within it an `error` member of any
shape is enough, and so is any end of the body; and what a re-send is refused with
is dropped unread.
-/

namespace TinyLlb

open RetryTask

/-- The loop ends with the outcome of its last send. -/
def SendOutcome.Reported : SendOutcome → TransientRetryOutcome → Prop
  | timeout, result => result = .failed .timeout
  | network e, result => result = .failed (.network e)
  | response status body, result =>
      if isSuccessStatus status then result = .success status
      else
        match body with
        | .ok bytes => result = .finalResponse status bytes
        | .error e => result = .failed (.network e)

/-- A failure is what the client is answered with. -/
def SendOutcome.ReachesClient : SendOutcome → ForwardOutcome → Prop
  | timeout, result => result = .failed .timeout
  | network e, result => result = .failed (.network e)
  | response status body, result =>
      isErrorStatus status = true →
        match body with
        | .ok bytes => result = .errorResponse status bytes
        | .error e => result = .failed (.network e)

section

variable {fromSlice : Bytes → Option Json} {policy : TransientRetry} {outcomes : Nat → SendOutcome}

/-- What a loop of re-forwards does from its send `attempt + 1` on. -/
structure RetriesTransient (fromSlice : Bytes → Option Json) (outcomes : Nat → SendOutcome)
    (attempt : Nat) (run : TransientRetryRun) : Prop where
  more : attempt < run.sends
  transient : ∀ i, attempt < i → i < run.sends → (outcomes i).isTransient fromSlice = true
  reported : (outcomes run.sends).Reported run.outcome

theorem RetriesTransient.last {attempt : Nat} {run : TransientRetryRun}
    (made : run.delays.length = attempt + 1)
    (reported : (outcomes (attempt + 1)).Reported run.outcome) :
    RetriesTransient fromSlice outcomes attempt run := by
  have sends : run.sends = attempt + 1 := made
  refine ⟨by omega, ?_, by rwa [sends]⟩
  intro i more less
  omega

theorem RetriesTransient.again {attempt : Nat} {run : TransientRetryRun}
    (transient : (outcomes (attempt + 1)).isTransient fromSlice = true)
    (later : RetriesTransient fromSlice outcomes (attempt + 1) run) :
    RetriesTransient fromSlice outcomes attempt run := by
  refine ⟨Nat.lt_of_succ_lt later.more, ?_, later.reported⟩
  intro i more less
  rcases Nat.lt_or_eq_of_le (Nat.succ_le_of_lt more) with beyond | here
  · exact later.transient i beyond less
  · rw [← here]
    exact transient

theorem retriesTransient_from {attempt : Nat} {delays : List Duration}
    (made : delays.length = attempt) :
    RetriesTransient fromSlice outcomes attempt
      (transientRetryFrom fromSlice policy outcomes attempt delays) := by
  fun_induction transientRetryFrom with
  | case1 attempt delays attempt' delays' status body outcome success =>
      refine .last (by simp [delays', made]) ?_
      change (outcomes attempt').Reported _
      simp [outcome, SendOutcome.Reported, success]
  | case3 attempt delays attempt' delays' status failure bytes clears room outcome ih =>
      refine .again ?_ (ih (by simp [delays', attempt', made]))
      change (outcomes attempt').isTransient fromSlice = true
      simp [outcome, SendOutcome.isTransient, failure, clears]
  | case7 attempt delays attempt' delays' e outcome clears room ih =>
      refine .again ?_ (ih (by simp [delays', attempt', made]))
      change (outcomes attempt').isTransient fromSlice = true
      simp [outcome, SendOutcome.isTransient, clears]
  | case2 attempt delays attempt' delays' status failure e outcome
  | case4 attempt delays attempt' delays' status failure bytes clears spent outcome
  | case5 attempt delays attempt' delays' status failure bytes stays outcome =>
      refine .last (by simp [delays', made]) ?_
      change (outcomes attempt').Reported _
      simp [outcome, SendOutcome.Reported, failure]
  | case6 attempt delays attempt' delays' outcome
  | case8 attempt delays attempt' delays' e outcome
  | case9 attempt delays attempt' delays' e outcome =>
      refine .last (by simp [delays', made]) ?_
      change (outcomes attempt').Reported _
      simp [outcome, SendOutcome.Reported]

theorem not_success_of_error {status : Nat} (error : isErrorStatus status = true) :
    isSuccessStatus status = false := by
  simp only [isErrorStatus, isSuccessStatus, decide_eq_true_eq, decide_eq_false_iff_not] at error ⊢
  omega

theorem SendOutcome.Reported.toForward {outcome : SendOutcome} {result : TransientRetryOutcome}
    (reported : outcome.Reported result) : outcome.ReachesClient result.toForward := by
  cases outcome with
  | timeout | network =>
      obtain rfl := reported
      rfl
  | response status body =>
      intro error
      simp only [Reported, not_success_of_error error, Bool.false_eq_true, if_false] at reported
      cases body with
      | ok bytes =>
          obtain rfl := reported
          rfl
      | error e =>
          obtain rfl := reported
          rfl

/-- The handler sends again only after transient outcomes, and answers with the
    last one. -/
theorem forward_transient (fromSlice : Bytes → Option Json) (policy : TransientRetry)
    (outcomes : Nat → SendOutcome) :
    (∀ i < (forward fromSlice policy outcomes).sends, (outcomes i).isTransient fromSlice = true) ∧
      (outcomes (forward fromSlice policy outcomes).sends).ReachesClient
        (forward fromSlice policy outcomes).outcome := by
  have loop : RetriesTransient fromSlice outcomes 0 (transientRetry fromSlice policy outcomes) :=
    retriesTransient_from rfl
  have reforwarded : (outcomes 0).isTransient fromSlice = true →
      (∀ i < (transientRetry fromSlice policy outcomes).sends,
        (outcomes i).isTransient fromSlice = true) ∧
      (outcomes (transientRetry fromSlice policy outcomes).sends).ReachesClient
        (transientRetry fromSlice policy outcomes).outcome.toForward := by
    intro first
    refine ⟨?_, loop.reported.toForward⟩
    intro i less
    rcases Nat.eq_zero_or_pos i with rfl | later
    · exact first
    · exact loop.transient i later less
  unfold forward
  cases first : outcomes 0 with
  | timeout => exact ⟨by simp, by simp [first, SendOutcome.ReachesClient]⟩
  | network e =>
      dsimp only
      split
      · rename_i clears
        exact reforwarded (by simp [first, SendOutcome.isTransient, clears.1])
      · exact ⟨by simp, by simp [first, SendOutcome.ReachesClient]⟩
  | response status body =>
      dsimp only
      split
      · rename_i error
        cases body with
        | error e => exact ⟨by simp, by simp [first, SendOutcome.ReachesClient]⟩
        | ok bytes =>
            dsimp only
            split
            · rename_i clears
              refine reforwarded ?_
              simp [first, SendOutcome.isTransient, clears.1, not_success_of_error error]
            · exact ⟨by simp, by simp [first, SendOutcome.ReachesClient]⟩
      · rename_i fine
        exact ⟨by simp, by simp [first, SendOutcome.ReachesClient, fine]⟩

end

/-- Every error that the event carries is a context error below the slot capacity. -/
def TransientFrame (cfg : RetryConfig) (frame : Bytes) : Prop :=
  ∀ line ∈ frame.splitOn lf, ∀ value, cfg.fromSlice (trimAscii (stripDataPrefix line)) = some value →
    (value.get "error").isSome = true → classifyErrorValue value = .transient

/-- An error frame of any other shape. -/
def PermanentFrame (cfg : RetryConfig) (frame : Bytes) : Prop :=
  (cfg.classify frame).isError = true ∧ ¬ TransientFrame cfg frame

/-- A connection that died. `eofCounts` says whether a body that ends without a
    terminal frame counts as one. -/
def ReadItem.isFailure (eofCounts : Bool) : ReadItem → Bool
  | chunk _ => false
  | failed error => isTransientNetworkError error
  | eof => eofCounts

def ReadItem.isChunk : ReadItem → Bool
  | chunk _ => true
  | _ => false

def readItem? (tr : TaskTransition) : Option ReadItem :=
  match tr.action with
  | .read item _ => some item
  | _ => none

/-- The body of an error that is not a context error below the slot capacity. -/
def SendOutcome.permanentBody? (fromSlice : Bytes → Option Json) : SendOutcome → Option Bytes
  | response status (.ok bytes) =>
      if isErrorStatus status = true ∧ classifyLlamacppError fromSlice bytes ≠ .transient then some bytes
      else none
  | _ => none

/-- What was read last. -/
def lastRead? (ts : List TaskTransition) : Option ReadItem := (ts.filterMap readItem?).getLast?

/-- The last thing observed before the transition is a transient failure. -/
def TransientCause (eofCounts : Bool) (cfg : RetryConfig) (before : List TaskTransition)
    (tr : TaskTransition) : Prop :=
  match handled? tr with
  | some frame => (cfg.classify frame).isError = true ∧ TransientFrame cfg frame
  | none => tr.pre.sawAnything = false ∧
      ∃ item, lastRead? before = some item ∧ item.isFailure eofCounts = true

/-- The read ends an attempt that is not accepted, and not by a connection that died. -/
def EndsOtherwise (eofCounts : Bool) (cfg : RetryConfig) (tr : TaskTransition) : Prop :=
  tr.pre.accepted = false ∧ ∃ item late, tr.action = .read item late ∧
    item.isFailure eofCounts = false ∧
      ((∃ bytes, item = .chunk bytes) → (cfg.requestTimeout.isSome && late) = true)

/-- Only transient failures are re-forwarded, and the others reach the client. -/
structure OnlyTransientReforwarded (eofCounts : Bool) (cfg : RetryConfig) (ts : List TaskTransition)
    (s : RetryTask) : Prop where
  cause : ∀ before tr after, ts = before ++ tr :: after → (∃ e ∈ tr.event, e.isReforward = true) →
    TransientCause eofCounts cfg before tr
  passed : ∀ tr ∈ ts, ∀ frame, handled? tr = some frame → tr.action = .step true →
    PermanentFrame cfg frame → tr.event = some (.frame frame)
  told : Connected ts → (∃ ending, s.pc = .finished ending) →
    ∀ tr ∈ ts, EndsOtherwise eofCounts cfg tr → ∃ e ∈ Machine.events ts, e.isAbort = true
  refused : Connected ts → (∃ ending, s.pc = .finished ending) →
    ∀ tr ∈ ts, ∀ outcome, tr.action = .respond outcome → outcome.isSuccess = false →
      ∃ e ∈ Machine.events ts, e.isAbort = true
  answered : Connected ts → (∃ ending, s.pc = .finished ending) →
    ∀ before tr after, ts = before ++ tr :: after → ∀ outcome bytes, tr.action = .respond outcome →
      outcome.permanentBody? cfg.fromSlice = some bytes → .frame bytes ∈ Machine.events after

/-- The event goes no further, and starts no re-forward either. -/
def RetryTask.withholds (cfg : RetryConfig) (s : RetryTask) (frame : Bytes) : Bool :=
  match (cfg.classify frame).finishReason with
  | some reason => (s.noted cfg frame).premature cfg reason
  | none => (cfg.classify frame).isDone || (cfg.classify frame).hasUsage

/-- Where a re-forward is still possible, the backend fails transiently. -/
structure FailsTransiently (eofCounts : Bool) (cfg : RetryConfig) (ts : List TaskTransition) : Prop where
  frames : ∀ tr ∈ ts, ∀ frame, handled? tr = some frame → tr.pre.accepted = false →
    PermanentFrame cfg frame → (tr.pre.noted cfg frame).mayReforward cfg = false ∧
      (tr.action = .step true → tr.pre.withholds cfg frame = false)
  ends : ∀ tr ∈ ts, ∀ item late, tr.action = .read item late → (∀ bytes, item ≠ .chunk bytes) →
    tr.pre.accepted = false → tr.pre.mayReforward cfg = true → item.isFailure eofCounts = true
  /-- Unless the very same bytes go out as the error frame that was re-forwarded. -/
  answers : ∀ tr ∈ ts, ∀ outcome bytes, tr.action = .respond outcome →
    outcome.permanentBody? cfg.fromSlice = some bytes → tr.pre.pc = .awaitReforward (some bytes)

section

variable {cfg : RetryConfig} {guard : LifecycleGuard} {s s' : RetryTask} {action : TaskAction}
  {event : Option TaskEvent} {ts : List TaskTransition} {eofCounts : Bool}

theorem lastRead?_snoc (ts : List TaskTransition) (tr : TaskTransition) :
    lastRead? (ts ++ [tr]) = (readItem? tr).or (lastRead? ts) := by
  unfold lastRead?
  cases read : readItem? tr <;> simp [read]

theorem handled?_eq {tr : TaskTransition} {frame : Bytes} (handled : handled? tr = some frame) :
    ∃ rest c, tr.pre.pc = .frames (frame :: rest) ∧ tr.action = .step c := by
  unfold handled? at handled
  split at handled
  · rename_i first rest c pc step
    obtain rfl := Option.some.inj handled
    exact ⟨rest, c, pc, step⟩
  · cases handled

/-- A re-forward answers to an error frame or to the end of a body. -/
theorem TaskStep.reforward_cases (step : TaskStep cfg s action event s')
    (sends : ∃ e ∈ event, e.isReforward = true) :
    (∃ frame, handled? ⟨s, action, event, s'⟩ = some frame ∧ s.accepted = false ∧
      s.reforwardsOn cfg frame = true) ∨
    (handled? ⟨s, action, event, s'⟩ = none ∧ s.pc = .settle .eof ∧ s.accepted = false ∧
      s.mayReforward cfg = true) := by
  obtain ⟨e, member, reforward⟩ := sends
  cases step with
  | @reforwardedFrame c frame rest pc open_ on =>
      exact .inl ⟨frame, by simp [handled?, pc], open_, on⟩
  | reforwardedEnd pc open_ may => exact .inr ⟨by simp [handled?, pc], pc, open_, may⟩
  | closed =>
      split at member
      · cases member
      · cases member
        cases reforward
  | passed | accepted | forwarded | noticed | retried | errorFrame | flushed =>
      cases member
      cases reforward
  | _ => cases member

/-- An event is passed on once the stream is accepted, and before that unless it is
    answered by a re-forward or withheld. -/
theorem TaskStep.passes_iff {frame : Bytes} {rest : List Bytes}
    (step : TaskStep cfg s (.step true) event s') (here : s.pc = .frames (frame :: rest)) :
    event = some (.frame frame) ↔
      s.accepted = true ∨ (s.reforwardsOn cfg frame = false ∧ s.withholds cfg frame = false) := by
  cases step with
  | passed pc accepted =>
      cases here.symm.trans pc
      simp [accepted]
  | reforwardedFrame pc open_ on =>
      cases here.symm.trans pc
      simp [reforward, open_, on]
  | premature pc open_ off terminal premature | panicked pc open_ off terminal premature =>
      cases here.symm.trans pc
      simp [open_, withholds, terminal, premature]
  | accepted pc open_ off terminal final =>
      cases here.symm.trans pc
      simp [off, withholds, terminal, final]
  | dropped pc open_ off inner marker =>
      cases here.symm.trans pc
      simp [open_, withholds, inner, marker]
  | forwarded pc open_ off inner plain =>
      cases here.symm.trans pc
      simp [off, withholds, inner, plain]
  | drained pc | noticed pc | retried pc | unwritable pc | errorFrame pc | flushedNothing pc
  | flushed pc | completed pc | abandoned pc | reforwardedEnd pc | exhausted pc | closed pc =>
      cases here.symm.trans pc

/-- Between the read that ends a body and the decision at the end of the attempt
    nothing is decided. -/
def EndRead (cfg : RetryConfig) (ts : List TaskTransition) (s : RetryTask) : Prop :=
  s.pc = .flush .eof ∨ s.pc = .settle .eof →
    ∃ tr ∈ ts, ∃ item late, tr.action = .read item late ∧ (∀ bytes, item ≠ .chunk bytes) ∧
      tr.pre.accepted = s.accepted ∧ tr.pre.mayReforward cfg = s.mayReforward cfg ∧
        lastRead? ts = some item

theorem EndRead.kept {tr : TaskTransition} {t : RetryTask} (held : EndRead cfg ts s)
    (here : s.pc = .flush .eof) (accepted : t.accepted = s.accepted)
    (may : t.mayReforward cfg = s.mayReforward cfg) (other : readItem? tr = none) :
    EndRead cfg (ts ++ [tr]) t := by
  intro _
  obtain ⟨read, member, item, late, action, ends, same, budget, last⟩ := held (.inl here)
  refine ⟨read, List.mem_append_left _ member, item, late, action, ends, same.trans accepted.symm,
    budget.trans may.symm, ?_⟩
  rw [lastRead?_snoc, other, Option.none_or, last]

theorem TaskStep.endRead (step : TaskStep cfg s action event s') (held : EndRead cfg ts s) :
    EndRead cfg (ts ++ [⟨s, action, event, s'⟩]) s' := by
  cases step with
  | @ended item late pc over_ =>
      intro _
      refine ⟨_, List.mem_append_right _ (List.mem_singleton.mpr rfl),
        item, late, rfl, over_, rfl, rfl, ?_⟩
      rw [lastRead?_snoc]
      rfl
  | @flushedNothing c outcome pc =>
      intro here
      obtain rfl : outcome = .eof := by simpa using here
      exact held.kept pc rfl rfl rfl (.inr rfl)
  | @flushed outcome pc =>
      intro here
      obtain rfl : outcome = .eof := by simpa using here
      exact held.kept pc rfl rfl rfl (.inr rfl)
  | @reforwardFailed outcome frame =>
      intro here
      cases frame <;> simp [afterFailedReforward] at here
  | _ =>
      intro here
      simp [reforward, restart] at here

theorem endRead_of_run (run : (retryStream cfg guard).Exec (retryStream cfg guard).start ts s) :
    EndRead cfg ts s := by
  induction run with
  | nil =>
      intro here
      simp [retryStream, start] at here
  | snoc whole next ih => exact (step_of_nextTask next).endRead ih

/-- An attempt that is not accepted has ended, and none follows. -/
def EndedForGood (cfg : RetryConfig) (s : RetryTask) : Prop :=
  s.accepted = false ∧ s.streamOk = false ∧
    ((∃ outcome, (s.pc = .flush outcome ∨ s.pc = .settle outcome) ∧
      (outcome ≠ .eof ∨ s.mayReforward cfg = false)) ∨ (∃ frame, s.pc = .errorFrame frame) ∨
      s.pc = .closing ∨ s.pc = .finished .closed)

theorem EndedForGood.step (held : EndedForGood cfg s)
    (next : nextTask cfg s (.step true) = some (s', event)) : EndedForGood cfg s' := by
  obtain ⟨open_, notOk, ⟨outcome, pc | pc, why⟩ | ⟨frame, pc⟩ | pc | pc⟩ := held
  · simp only [nextTask, pc, sendThen, if_true] at next
    split at next
    · cases next
      exact ⟨open_, notOk, .inl ⟨outcome, .inr rfl, why⟩⟩
    · cases next
      exact ⟨open_, notOk, .inl ⟨outcome, .inr rfl, why⟩⟩
  · simp only [nextTask, pc, settle, open_, Bool.false_eq_true, if_false] at next
    cases outcome with
    | deadline | stall =>
        cases next
        exact ⟨rfl, notOk, .inr (.inr (.inl rfl))⟩
    | eof =>
        have spent := why.resolve_left (by simp)
        simp only [spent, Bool.false_eq_true, if_false] at next
        split at next
        · cases next
          exact ⟨rfl, notOk, .inr (.inr (.inl rfl))⟩
        · cases next
          exact ⟨rfl, notOk, .inr (.inr (.inl rfl))⟩
  · simp only [nextTask, pc, sendThen, if_true] at next
    cases next
    exact ⟨open_, notOk, .inr (.inr (.inl rfl))⟩
  · simp only [nextTask, pc] at next
    cases next
    exact ⟨open_, notOk, .inr (.inr (.inr rfl))⟩
  · simp [nextTask, pc] at next

theorem EndedForGood.of_exec {t : RetryTask} (held : EndedForGood cfg s) (connected : Connected ts)
    (run : (retryStream cfg guard).Exec s ts t) : EndedForGood cfg t := by
  refine run.invariant_within (I := EndedForGood cfg) connected held ?_
  intro v a w e before there next
  cases a with
  | step c =>
      obtain rfl : c = true := by simpa using there
      exact before.step next
  | stalled | read | respond =>
      obtain ⟨-, -, ⟨outcome, pc | pc, -⟩ | ⟨frame, pc⟩ | pc | pc⟩ := before <;>
        simp [retryStream, nextTask, pc] at next

theorem abort_of_endedForGood {before after : List TaskTransition} {tr : TaskTransition}
    {ending : Ending} (connected : Connected (before ++ tr :: after))
    (run : (retryStream cfg guard).Exec (retryStream cfg guard).start (before ++ tr :: after) s)
    (ended : EndedForGood cfg tr.post) (over_ : s.pc = .finished ending) :
    ∃ e ∈ Machine.events (before ++ tr :: after), e.isAbort = true := by
  obtain ⟨-, -, second⟩ := run.split_at
  have later : Connected after := fun tr member => connected tr (by simp [member])
  obtain ⟨-, notOk, ⟨outcome, pc | pc, -⟩ | ⟨frame, pc⟩ | pc | pc⟩ := ended.of_exec later second
  · cases over_.symm.trans pc
  · cases over_.symm.trans pc
  · cases over_.symm.trans pc
  · cases over_.symm.trans pc
  · exact (abort_iff connected run).mpr ⟨pc, notOk⟩

theorem endedForGood_of_read (run : (retryStream cfg guard).Exec (retryStream cfg guard).start ts s)
    (fails : s.mayReforward cfg = true → ∀ item late, action = .read item late →
      (∀ bytes, item ≠ .chunk bytes) → item.isFailure eofCounts = true)
    (next : nextTask cfg s action = some (s', event))
    (ends : EndsOtherwise eofCounts cfg ⟨s, action, event, s'⟩) : EndedForGood cfg s' := by
  obtain ⟨open_, item, late, read, other, due⟩ := ends
  dsimp only at open_ read
  subst read
  have step : TaskStep cfg s (.read item late) event s' := step_of_nextTask next
  cases step with
  | late pc =>
      have notOk := not_streamOk_of_run run pc rfl
      exact ⟨open_, notOk, .inl ⟨.deadline, .inl rfl, .inl (by simp)⟩⟩
  | @fed bytes late pc inTime =>
      have over_ := due ⟨bytes, rfl⟩
      rw [inTime] at over_
      cases over_
  | ended pc over_ =>
      have notOk := not_streamOk_of_run run pc rfl
      refine ⟨open_, notOk, .inl ⟨.eof, .inl rfl, .inr ?_⟩⟩
      rw [Bool.eq_false_iff]
      intro may
      cases other.symm.trans (fails may item late rfl over_)

/-- A re-send that is refused is the last one. Of what was received only the error
    frame that it was made for goes out. -/
theorem TaskStep.refused {outcome : SendOutcome} (step : TaskStep cfg s (.respond outcome) event s')
    (refused : outcome.isSuccess = false) :
    (s'.pc = .closing ∧ ∀ frame, s.pc ≠ .awaitReforward (some frame)) ∨
      ∃ frame, s.pc = .awaitReforward (some frame) ∧ s'.pc = .errorFrame frame := by
  cases step with
  | restarted pc success => cases refused.symm.trans success
  | retryFailed pc => exact .inl ⟨rfl, by simp [pc]⟩
  | @reforwardFailed outcome frame pc =>
      cases frame with
      | none => exact .inl ⟨rfl, by simp [pc]⟩
      | some frame => exact .inr ⟨frame, pc, rfl⟩

theorem SendOutcome.refused_of_permanentBody {fromSlice : Bytes → Option Json} {outcome : SendOutcome}
    {bytes : Bytes} (permanent : outcome.permanentBody? fromSlice = some bytes) :
    outcome.isSuccess = false := by
  cases outcome with
  | timeout | network => rfl
  | response status body =>
      cases body with
      | error e => cases permanent
      | ok received =>
          simp only [permanentBody?, Option.ite_none_right_eq_some] at permanent
          exact not_success_of_error permanent.1.1

theorem endedForGood_of_refused {outcome : SendOutcome}
    (run : (retryStream cfg guard).Exec (retryStream cfg guard).start ts s)
    (refused : outcome.isSuccess = false)
    (next : nextTask cfg s (.respond outcome) = some (s', event)) : EndedForGood cfg s' := by
  have step := step_of_nextTask next
  have settled := settled_of_run run
  cases step with
  | restarted pc success => cases refused.symm.trans success
  | retryFailed pc =>
      have notOk := not_streamOk_of_run run pc rfl
      exact ⟨settled.open_ pc rfl rfl, notOk, .inr (.inr (.inl rfl))⟩
  | @reforwardFailed outcome frame pc =>
      have notOk := not_streamOk_of_run run pc rfl
      refine ⟨settled.open_ pc rfl rfl, notOk, .inr ?_⟩
      cases frame with
      | none => exact .inr (.inl rfl)
      | some frame => exact .inl ⟨frame, rfl⟩

theorem events_of_closing (pc : s.pc = .closing) (run : (retryStream cfg guard).Exec s ts s') :
    (s'.pc = .closing ∨ ∃ ending, s'.pc = .finished ending) ∧
      ∀ e ∈ Machine.events ts, e.isAbort = true := by
  induction run with
  | nil => exact ⟨.inl pc, by simp⟩
  | @snoc ts v a w e whole next ih =>
      obtain ⟨here | ⟨ending, over_⟩, aborts⟩ := ih
      · cases a with
        | step c =>
            simp only [retryStream, nextTask, here, Option.some.injEq] at next
            cases next
            refine ⟨.inr ⟨_, rfl⟩, ?_⟩
            intro x member
            rw [Machine.events_append, Machine.events_singleton, List.mem_append] at member
            rcases member with earlier | now
            · exact aborts x earlier
            · split at now
              · cases now
              · obtain rfl : x = .abort := by simpa using now
                rfl
        | stalled | read | respond => simp [retryStream, nextTask, here] at next
      · exact absurd over_ ((step_of_nextTask next).not_finished ending)

/-- Behind the refused re-send the client is sent the error frame that it was made
    for, and nothing of the backend's besides. -/
theorem frame_mem_after_refused {outcome : SendOutcome} {ending : Ending} {t : RetryTask}
    {bytes : Bytes} (refused : outcome.isSuccess = false) (connected : Connected ts)
    (next : nextTask cfg s (.respond outcome) = some (s', event))
    (run : (retryStream cfg guard).Exec s' ts t) (over_ : t.pc = .finished ending) :
    .frame bytes ∈ Machine.events ts ↔ s.pc = .awaitReforward (some bytes) := by
  have silent : ∀ {v ts}, v.pc = .closing → (retryStream cfg guard).Exec v ts t →
      .frame bytes ∉ Machine.events ts := by
    intro v ts closing rest sent
    cases (events_of_closing closing rest).2 _ sent
  rcases (step_of_nextTask next).refused refused with ⟨closing, other⟩ | ⟨frame, waits, pc⟩
  · exact ⟨fun sent => absurd sent (silent closing run), fun waits => absurd waits (other bytes)⟩
  · obtain ⟨tr, rest, rfl, -, goes, later⟩ := run.uncons fun same => by
      rw [same, pc] at over_
      cases over_
    have goes : nextTask cfg s' tr.action = some (tr.post, tr.event) := goes
    cases action : tr.action with
    | step c =>
        obtain rfl : c = true := by
          have there := connected tr List.mem_cons_self
          rw [action] at there
          simpa using there
        simp only [action, nextTask, pc, sendThen, if_true, Option.some.injEq] at goes
        obtain ⟨post, sent⟩ := Prod.mk.inj goes
        have closing : tr.post.pc = .closing := by rw [← post]
        rw [← List.singleton_append, Machine.events_append, Machine.events_singleton, ← sent, waits]
        simp [silent closing later, eq_comm]
    | stalled | read | respond => simp [action, nextTask, pc] at goes

theorem onlyTransient_of_fails
    (run : (retryStream cfg guard).Exec (retryStream cfg guard).start ts s)
    (fails : FailsTransiently eofCounts cfg ts) : OnlyTransientReforwarded eofCounts cfg ts s := by
  constructor
  · rintro before tr after rfl sends
    obtain ⟨first, next, -⟩ := run.split_at
    unfold TransientCause
    rcases (step_of_nextTask next).reforward_cases sends with
      ⟨frame, handled, open_, on⟩ | ⟨handled, pc, open_, may⟩
    · rw [handled]
      simp only [reforwardsOn, Bool.and_eq_true] at on
      refine ⟨on.1, ?_⟩
      by_contra permanent
      have spent := (fails.frames tr (by simp) frame handled open_ ⟨on.1, permanent⟩).1
      cases spent.symm.trans on.2
    · rw [handled]
      refine ⟨(lt_of_mayReforward may).1, ?_⟩
      obtain ⟨read, member, item, late, action, ends, accepted, budget, last⟩ :=
        endRead_of_run first (.inr pc)
      refine ⟨item, last, ?_⟩
      exact fails.ends read (List.mem_append_left _ member) item late action ends
        (accepted.trans open_) (budget.trans may)
  · intro tr member frame handled there permanent
    obtain ⟨rest, c, pc, -⟩ := handled?_eq handled
    have step := step_of_nextTask (run.step_of_mem member)
    rw [there] at step
    rw [step.passes_iff pc]
    cases accepted : tr.pre.accepted with
    | true => exact .inl rfl
    | false =>
        obtain ⟨spent, shown⟩ := fails.frames tr member frame handled accepted permanent
        exact .inr ⟨by simp [reforwardsOn, spent], shown there⟩
  · rintro connected ⟨ending, over_⟩ tr member ends
    obtain ⟨before, after, rfl, first, -⟩ := run.split_of_mem member
    refine abort_of_endedForGood connected run (endedForGood_of_read first ?_
      (run.step_of_mem member) ends) over_
    intro may item late action other
    exact fails.ends tr member item late action other ends.1 may
  · rintro connected ⟨ending, over_⟩ tr member outcome response failure
    obtain ⟨before, after, rfl, first, -⟩ := run.split_of_mem member
    have next := run.step_of_mem member
    rw [response] at next
    exact abort_of_endedForGood connected run (endedForGood_of_refused first failure next) over_
  · rintro connected ⟨ending, over_⟩ before tr after rfl outcome bytes response permanent
    obtain ⟨-, next, second⟩ := run.split_at
    rw [response] at next
    have later : Connected after := fun tr member => connected tr (by simp [member])
    rw [frame_mem_after_refused (SendOutcome.refused_of_permanentBody permanent) later next second over_]
    exact fails.answers tr (by simp) outcome bytes response permanent

theorem next_of_flush {outcome : ReadOutcome} (pc : s.pc = .flush outcome) (there : action ≠ .step false)
    (next : nextTask cfg s action = some (s', event)) :
    action = .step true ∧ s' = { s with pc := .settle outcome } := by
  cases action with
  | step c =>
      obtain rfl : c = true := by simpa using there
      simp only [nextTask, pc, sendThen, if_true] at next
      split at next
      · cases next
        exact ⟨rfl, rfl⟩
      · cases next
        exact ⟨rfl, rfl⟩
  | stalled | read | respond => simp [nextTask, pc] at next

theorem reforward_after_read {tr : TaskTransition} {after : List TaskTransition} {item : ReadItem}
    {late : Bool} {ending : Ending} (read : tr.action = .read item late)
    (over_ : ∀ bytes, item ≠ .chunk bytes) (open_ : tr.pre.accepted = false)
    (may : tr.pre.mayReforward cfg = true) (connected : Connected after)
    (next : nextTask cfg tr.pre tr.action = some (tr.post, tr.event))
    (run : (retryStream cfg guard).Exec tr.post after s) (finished : s.pc = .finished ending) :
    ∃ flush settle rest, after = flush :: settle :: rest ∧ readItem? flush = none ∧
      handled? settle = none ∧ ∃ e ∈ settle.event, e.isReforward = true := by
  obtain ⟨v, a, event, w⟩ := tr
  dsimp only at read open_ may next run
  subst read
  have step : TaskStep cfg v (.read item late) event w := step_of_nextTask next
  cases step with
  | late | fed => exact absurd rfl (over_ _)
  | ended pc =>
      obtain ⟨flush, more, rfl, -, flushes, second⟩ := run.uncons fun same => by
        rw [same] at finished
        cases finished
      have flushes : nextTask cfg { v with pc := .flush .eof } flush.action = _ := flushes
      obtain ⟨action, flushed⟩ := next_of_flush rfl (connected flush (by simp)) flushes
      rw [flushed] at second
      obtain ⟨settle, rest, rfl, at_, settles, -⟩ := second.uncons fun same => by
        rw [same] at finished
        cases finished
      refine ⟨flush, settle, rest, rfl, by simp [readItem?, action], by simp [handled?, at_], ?_⟩
      exact reforward_of_settle (s := { v with pc := .settle .eof }) rfl open_ may settles

theorem fails_of_onlyTransient
    (run : (retryStream cfg guard).Exec (retryStream cfg guard).start ts s) (connected : Connected ts)
    {ending : Ending} (finished : s.pc = .finished ending)
    (only : OnlyTransientReforwarded eofCounts cfg ts s) : FailsTransiently eofCounts cfg ts := by
  constructor
  · intro tr member frame handled open_ permanent
    obtain ⟨rest, c, pc, action⟩ := handled?_eq handled
    obtain rfl : c = true := by
      have there := connected tr member
      rw [action] at there
      simpa using there
    have step := step_of_nextTask (run.step_of_mem member)
    rw [action] at step
    have passed := (step.passes_iff pc).mp (only.passed tr member frame handled action permanent)
    obtain ⟨off, shown⟩ := passed.resolve_left (by simp [open_])
    simp only [reforwardsOn, permanent.1, Bool.true_and] at off
    exact ⟨off, fun _ => shown⟩
  · intro tr member item late read over_ open_ may
    obtain ⟨before, after, rfl, first, second⟩ := run.split_of_mem member
    have later : Connected after := fun tr member => connected tr (by simp [member])
    obtain ⟨flush, settle, rest, rfl, unread, unhandled, sends⟩ :=
      reforward_after_read read over_ open_ may later (run.step_of_mem member) second finished
    have cause := only.cause (before ++ [tr, flush]) settle rest (by simp) sends
    unfold TransientCause at cause
    rw [unhandled] at cause
    obtain ⟨-, last, found, failure⟩ := cause
    have same : lastRead? (before ++ [tr, flush]) = some item := by
      rw [show before ++ [tr, flush] = (before ++ [tr]) ++ [flush] by simp, lastRead?_snoc, unread,
        lastRead?_snoc]
      simp [readItem?, read]
    rw [same] at found
    cases found
    exact failure
  · intro tr member outcome bytes response permanent
    obtain ⟨before, after, rfl, -, second⟩ := run.split_of_mem member
    have next := run.step_of_mem member
    rw [response] at next
    have later : Connected after := fun tr member => connected tr (by simp [member])
    rw [← frame_mem_after_refused (SendOutcome.refused_of_permanentBody permanent) later next second
      finished]
    exact only.answered connected ⟨ending, finished⟩ before tr after rfl outcome bytes response permanent

/-- Before the stream every re-forward answers to a transient failure. Within it that
    is so in every run in which the backend fails transiently, and in a finished run
    only then, whether or not the plain end of a body counts as a connection that
    died. -/
theorem only_transient_reforwarded_iff
    (run : (retryStream cfg guard).Exec (retryStream cfg guard).start ts s) :
    (∀ fromSlice policy outcomes,
      (∀ i < (forward fromSlice policy outcomes).sends, (outcomes i).isTransient fromSlice = true) ∧
        (outcomes (forward fromSlice policy outcomes).sends).ReachesClient
          (forward fromSlice policy outcomes).outcome) ∧
    ∀ eofCounts,
      (FailsTransiently eofCounts cfg ts → OnlyTransientReforwarded eofCounts cfg ts s) ∧
      (Connected ts → (∃ ending, s.pc = .finished ending) →
        OnlyTransientReforwarded eofCounts cfg ts s → FailsTransiently eofCounts cfg ts) := by
  refine ⟨forward_transient, fun eofCounts => ⟨onlyTransient_of_fails run, ?_⟩⟩
  rintro connected ⟨ending, finished⟩ only
  exact fails_of_onlyTransient run connected finished only

end

/-- A connection that dies before anything was said, and a turn after the re-forward. -/
def resetTurn : List TaskAction :=
  [.read (.failed ⟨false, [some .connectionReset]⟩) false, .step true, .step true,
    .respond (.response 200 (.ok [])),
    .read (.chunk (sampleEvent sampleContent ++ sampleEvent sampleStop)) false, .step true, .step true,
    .step true, .read .eof false, .step true, .step true, .step true]

theorem only_transient_reforwarded_iff_reset :
    (Machine.events (retrySample.trace resetTurn)).countP TaskEvent.isReforward = 1 ∧
      OnlyTransientReforwarded false .sample (retrySample.trace resetTurn)
        (retrySample.after resetTurn) := by
  obtain ⟨resends, errorFree, ends⟩ :
      (Machine.events (retrySample.trace resetTurn)).countP TaskEvent.isReforward = 1 ∧
      (∀ tr ∈ retrySample.trace resetTurn, ∀ frame ∈ handled? tr,
        (RetryConfig.sample.classify frame).isError = false) ∧
      ∀ tr ∈ retrySample.trace resetTurn, ∀ item ∈ readItem? tr,
        tr.pre.accepted = true ∨ item.isChunk = true ∨ item.isFailure false = true := by
    decide +kernel
  refine ⟨resends, ((only_transient_reforwarded_iff (retrySample.exec_after resetTurn)).2 false).1 ?_⟩
  constructor
  · intro tr member frame handled _ permanent
    cases (errorFree tr member frame handled).symm.trans permanent.1
  · intro tr member item late action over_ open_ _
    have read : readItem? tr = some item := by simp [readItem?, action]
    rcases ends tr member item read with accepted | chunk | failure
    · cases open_.symm.trans accepted
    · cases item with
      | chunk bytes => exact absurd rfl (over_ bytes)
      | failed | eof => cases chunk
    · exact failure
  · intro tr member outcome bytes response permanent
    have granted := Machine.action_of_trace (P := fun action => ∀ outcome, action = .respond outcome →
      outcome.isSuccess = true) (by simp [resetTurn]; rfl) member outcome response
    cases (SendOutcome.refused_of_permanentBody permanent).symm.trans granted

/-- An error frame that llama.cpp would not send for a full context. -/
def errorTurn : List TaskAction := [.read (.chunk (sampleEvent sampleError)) false, .step true]

/-- A body whose next piece does not come in time. -/
def timedOutTurn : List TaskAction :=
  [.read (.failed ⟨false, [some .timedOut]⟩) false, .step true, .step true]

/-- A stream that ends with nothing in it, and a re-send that is answered with an error
    of another kind. -/
def droppedBody : List TaskAction :=
  [.read .eof false, .step true, .step true, .respond (.response 400 (.ok (ascii sampleError))),
    .step true]

theorem sampleError_not_transient : ¬ TransientFrame .sample (sampleEvent sampleError) := by
  intro transient
  obtain ⟨line, found⟩ : ascii ("data: " ++ sampleError) ∈ (sampleEvent sampleError).splitOn lf ∧
      ((RetryConfig.sample.fromSlice (trimAscii (stripDataPrefix (ascii ("data: " ++ sampleError))))).map
        fun value => ((value.get "error").isSome, classifyErrorValue value)) =
          some (true, .notLlamacpp) := by
    decide +kernel
  obtain ⟨value, read, facts⟩ := Option.map_eq_some_iff.mp found
  obtain ⟨error, notLlamacpp⟩ := Prod.mk.inj facts
  cases notLlamacpp.symm.trans (transient _ line value read error)

/-- An error of another kind is re-forwarded, and so is a read that timed out; and the
    error that answers a re-send does not reach the client. -/
theorem other_failures_reforwarded :
    ¬ OnlyTransientReforwarded true .sample (retrySample.trace errorTurn) (retrySample.after errorTurn) ∧
      ¬ OnlyTransientReforwarded true .sample (retrySample.trace timedOutTurn)
        (retrySample.after timedOutTurn) ∧
      ¬ OnlyTransientReforwarded true .sample (retrySample.trace droppedBody)
        (retrySample.after droppedBody) := by
  refine ⟨?_, ?_, ?_⟩
  · intro only
    obtain ⟨before, last, split, handled, delay, sends⟩ :
        ∃ before last, retrySample.trace errorTurn = before ++ last :: [] ∧
          handled? last = some (sampleEvent sampleError) ∧
            ∃ delay, last.event = some (.reforwarded delay) :=
      ⟨(retrySample.trace errorTurn).take 1, _, rfl, by decide +kernel, _, rfl⟩
    have cause := only.cause before last [] split ⟨_, sends, rfl⟩
    unfold TransientCause at cause
    rw [handled] at cause
    exact sampleError_not_transient cause.2
  · intro only
    obtain ⟨before, last, split, handled, read, delay, sends⟩ :
        ∃ before last, retrySample.trace timedOutTurn = before ++ last :: [] ∧ handled? last = none ∧
          lastRead? before = some (.failed ⟨false, [some .timedOut]⟩) ∧
            ∃ delay, last.event = some (.reforwarded delay) :=
      ⟨(retrySample.trace timedOutTurn).take 2, _, rfl, rfl, rfl, _, rfl⟩
    have cause := only.cause before last [] split ⟨_, sends, rfl⟩
    unfold TransientCause at cause
    rw [handled] at cause
    obtain ⟨-, item, found, failure⟩ := cause
    cases read.symm.trans found
    cases failure
  · intro only
    obtain ⟨ending, over_⟩ := finished_of_weight
      (by decide +kernel : (retrySample.after droppedBody).pc.weight = 0)
    have connected : Connected (retrySample.trace droppedBody) := fun tr member =>
      Machine.action_of_trace (P := (· ≠ .step false)) (by simp [droppedBody]) member
    obtain ⟨before, last, next, split, response, permanent, aborts⟩ :
        ∃ before last next, retrySample.trace droppedBody = before ++ last :: [next] ∧
          last.action = .respond (.response 400 (.ok (ascii sampleError))) ∧
          (SendOutcome.response 400 (.ok (ascii sampleError))).permanentBody?
            RetryConfig.sample.fromSlice = some (ascii sampleError) ∧ next.event = some .abort :=
      ⟨(retrySample.trace droppedBody).take 3, _, _, rfl, rfl, by decide +kernel, rfl⟩
    have sent := only.answered connected ⟨ending, over_⟩ before last [next] split _ _ response permanent
    simp [aborts] at sent

end TinyLlb
