import TinyLlb.Stream.RetryStream

/-! # What one step of the retry task does

`TaskStep` lists everything a step of the task can do, with what decided it. The
invariants of whole runs are case analyses over it and never unfold `nextTask`.
-/

namespace TinyLlb

open RetryTask

/-- The task after the event has been noted. -/
def RetryTask.noted (cfg : RetryConfig) (s : RetryTask) (frame : Bytes) : RetryTask :=
  s.note (cfg.classify frame)

/-- The event is an error frame on which the task sends the request again. -/
def RetryTask.reforwardsOn (cfg : RetryConfig) (s : RetryTask) (frame : Bytes) : Bool :=
  (cfg.classify frame).isError && (s.noted cfg frame).mayReforward cfg

inductive TaskStep (cfg : RetryConfig) (s : RetryTask) :
    TaskAction → Option TaskEvent → RetryTask → Prop where
  | stalled (pc : s.pc = .reading) : TaskStep cfg s .stalled none { s with pc := .flush .stall }
  | late {bytes} (pc : s.pc = .reading) (due : cfg.requestTimeout.isSome = true) :
      TaskStep cfg s (.read (.chunk bytes) true) none { s with pc := .flush .deadline }
  | fed {bytes late} (pc : s.pc = .reading) (inTime : (cfg.requestTimeout.isSome && late) = false) :
      TaskStep cfg s (.read (.chunk bytes) late) none
        { s with parser := (s.parser.feed bytes).2, pc := .frames (s.parser.feed bytes).1 }
  | ended {item late} (pc : s.pc = .reading) (over_ : ∀ bytes, item ≠ .chunk bytes) :
      TaskStep cfg s (.read item late) none { s with pc := .flush .eof }
  | drained {c} (pc : s.pc = .frames []) : TaskStep cfg s (.step c) none { s with pc := .reading }
  | passed {frame rest} (pc : s.pc = .frames (frame :: rest)) (accepted : s.accepted = true) :
      TaskStep cfg s (.step true) (some (.frame frame))
        { s.countUsage cfg frame (cfg.classify frame).hasUsage with pc := .frames rest }
  | reforwardedFrame {c frame rest} (pc : s.pc = .frames (frame :: rest)) (open_ : s.accepted = false)
      (on : s.reforwardsOn cfg frame = true) :
      TaskStep cfg s (.step c) ((s.noted cfg frame).reforward cfg (some frame)).2
        ((s.noted cfg frame).reforward cfg (some frame)).1
  | premature {c frame rest reason body} (pc : s.pc = .frames (frame :: rest))
      (open_ : s.accepted = false) (off : s.reforwardsOn cfg frame = false)
      (terminal : (cfg.classify frame).finishReason = some reason)
      (premature : (s.noted cfg frame).premature cfg reason = true)
      (bumped : (s.noted cfg frame).retryBody cfg = some body) :
      TaskStep cfg s (.step c) none
        { (s.noted cfg frame).detectPrematureStop with pc := .notice body }
  | panicked {c frame rest reason} (pc : s.pc = .frames (frame :: rest))
      (open_ : s.accepted = false) (off : s.reforwardsOn cfg frame = false)
      (terminal : (cfg.classify frame).finishReason = some reason)
      (premature : (s.noted cfg frame).premature cfg reason = true)
      (failed : (s.noted cfg frame).retryBody cfg = none) :
      TaskStep cfg s (.step c) none
        { (s.noted cfg frame).detectPrematureStop with pc := .finished .panicked }
  | accepted {frame rest reason} (pc : s.pc = .frames (frame :: rest)) (open_ : s.accepted = false)
      (off : s.reforwardsOn cfg frame = false)
      (terminal : (cfg.classify frame).finishReason = some reason)
      (final : (s.noted cfg frame).premature cfg reason = false) :
      TaskStep cfg s (.step true) (some (.frame frame))
        { ((s.noted cfg frame).accept cfg reason).countUsage cfg frame
            (cfg.classify frame).hasUsage with pc := .frames rest }
  | dropped {c frame rest} (pc : s.pc = .frames (frame :: rest)) (open_ : s.accepted = false)
      (off : s.reforwardsOn cfg frame = false) (inner : (cfg.classify frame).finishReason = none)
      (marker : ((cfg.classify frame).isDone || (cfg.classify frame).hasUsage) = true) :
      TaskStep cfg s (.step c) none { s.noted cfg frame with pc := .frames rest }
  | forwarded {frame rest} (pc : s.pc = .frames (frame :: rest)) (open_ : s.accepted = false)
      (off : s.reforwardsOn cfg frame = false) (inner : (cfg.classify frame).finishReason = none)
      (plain : ((cfg.classify frame).isDone || (cfg.classify frame).hasUsage) = false) :
      TaskStep cfg s (.step true) (some (.frame frame)) { s.noted cfg frame with pc := .frames rest }
  | gone {t : RetryTask} (attempt : t.attempt = s.attempt)
      (transientAttempt : t.transientAttempt = s.transientAttempt) (ok : t.streamOk = s.streamOk)
      (parser : t.parser = s.parser) (kept : s.accepted = true → t.accepted = true)
      (active : ∀ ending, s.pc ≠ .finished ending)
      (uncounted : t.metrics.backendRetryExhausted = s.metrics.backendRetryExhausted) :
      TaskStep cfg s (.step false) none { t with pc := .finished .disconnected }
  | noticed {body} (pc : s.pc = .notice body) :
      TaskStep cfg s (.step true) (some (.notice s.attempt)) { s with pc := .retry body }
  | retried {c body} (pc : s.pc = .retry body) (writes : (cfg.toVec body).isSome = true) :
      TaskStep cfg s (.step c) (some (.retried body)) { s with pc := .awaitRetry }
  | unwritable {c body} (pc : s.pc = .retry body) (fails : cfg.toVec body = none) :
      TaskStep cfg s (.step c) none
        { s with
          metrics := { s.metrics with
            prematureStopExhausted := s.metrics.prematureStopExhausted + 1 }
          pc := .closing }
  | errorFrame {frame} (pc : s.pc = .errorFrame frame) :
      TaskStep cfg s (.step true) (some (.frame frame)) { s with pc := .closing }
  | flushedNothing {c outcome} (pc : s.pc = .flush outcome) (empty : s.parser.buffer = []) :
      TaskStep cfg s (.step c) none { s with pc := .settle outcome }
  | flushed {outcome} (pc : s.pc = .flush outcome) (some_ : s.parser.buffer ≠ []) :
      TaskStep cfg s (.step true) (some (.leftover s.parser.buffer)) { s with pc := .settle outcome }
  | completed {c outcome} (pc : s.pc = .settle outcome) (accepted : s.accepted = true) :
      TaskStep cfg s (.step c) none
        { s with
          lifecycleGuard := s.lifecycleGuard.markCompleted, streamOk := true, pc := .closing }
  | abandoned {c outcome} (pc : s.pc = .settle outcome) (open_ : s.accepted = false)
      (why : outcome ≠ .eof ∨ s.sawAnything = true) :
      TaskStep cfg s (.step c) none { s with pc := .closing }
  | reforwardedEnd {c} (pc : s.pc = .settle .eof) (open_ : s.accepted = false)
      (may : s.mayReforward cfg = true) :
      TaskStep cfg s (.step c) (s.reforward cfg none).2 (s.reforward cfg none).1
  | exhausted {c n} (pc : s.pc = .settle .eof) (open_ : s.accepted = false)
      (nothing : s.sawAnything = false) (spent : s.mayReforward cfg = false)
      (count : n = if cfg.transientPolicy.maxAttempts > 0 then 1 else 0) :
      TaskStep cfg s (.step c) none
        { s with
          metrics := { s.metrics with
            backendRetryExhausted := s.metrics.backendRetryExhausted + n }
          pc := .closing }
  | closed {c} (pc : s.pc = .closing) :
      TaskStep cfg s (.step c) (if s.streamOk || !c then none else some .abort)
        { s with pc := .finished .closed }
  | restarted {outcome} (pc : s.pc = .awaitRetry ∨ ∃ frame, s.pc = .awaitReforward frame)
      (success : outcome.isSuccess = true) : TaskStep cfg s (.respond outcome) none s.restart
  | retryFailed {outcome} (pc : s.pc = .awaitRetry) (failure : outcome.isSuccess = false) :
      TaskStep cfg s (.respond outcome) none
        { s with
          metrics := { s.metrics with
            prematureStopExhausted := s.metrics.prematureStopExhausted + 1 }
          pc := .closing }
  | reforwardFailed {outcome frame} (pc : s.pc = .awaitReforward frame)
      (failure : outcome.isSuccess = false) :
      TaskStep cfg s (.respond outcome) none
        { s with
          metrics := { s.metrics with
            backendRetryExhausted := s.metrics.backendRetryExhausted + 1 }
          pc := afterFailedReforward frame }

section

variable {cfg : RetryConfig} {s s' : RetryTask} {action : TaskAction} {event : Option TaskEvent}

theorem countUsage_field {β : Type} (field : RetryTask → β)
    (keeps : ∀ (s : RetryTask) metrics guard,
      field { s with metrics, lifecycleGuard := guard } = field s)
    (s : RetryTask) (frame : Bytes) (hasUsage : Bool) :
    field (s.countUsage cfg frame hasUsage) = field s := by
  unfold countUsage
  dsimp only
  split
  · exact keeps s _ _
  · rfl

@[simp] theorem countUsage_attempt (s : RetryTask) (frame : Bytes) (hasUsage : Bool) :
    (s.countUsage cfg frame hasUsage).attempt = s.attempt :=
  countUsage_field attempt (fun _ _ _ => rfl) s frame hasUsage

@[simp] theorem countUsage_transientAttempt (s : RetryTask) (frame : Bytes) (hasUsage : Bool) :
    (s.countUsage cfg frame hasUsage).transientAttempt = s.transientAttempt :=
  countUsage_field transientAttempt (fun _ _ _ => rfl) s frame hasUsage

@[simp] theorem countUsage_streamOk (s : RetryTask) (frame : Bytes) (hasUsage : Bool) :
    (s.countUsage cfg frame hasUsage).streamOk = s.streamOk :=
  countUsage_field streamOk (fun _ _ _ => rfl) s frame hasUsage

@[simp] theorem countUsage_accepted (s : RetryTask) (frame : Bytes) (hasUsage : Bool) :
    (s.countUsage cfg frame hasUsage).accepted = s.accepted :=
  countUsage_field accepted (fun _ _ _ => rfl) s frame hasUsage

@[simp] theorem parser_countUsage (s : RetryTask) (frame : Bytes) (hasUsage : Bool) :
    (s.countUsage cfg frame hasUsage).parser = s.parser :=
  countUsage_field parser (fun _ _ _ => rfl) s frame hasUsage

theorem countUsage_backendRetryExhausted (s : RetryTask) (frame : Bytes) (hasUsage : Bool) :
    (s.countUsage cfg frame hasUsage).metrics.backendRetryExhausted =
      s.metrics.backendRetryExhausted := by
  unfold countUsage
  dsimp only
  split <;> rfl

theorem accept_backendRetryExhausted (s : RetryTask) (finishReason : String) :
    (s.accept cfg finishReason).metrics.backendRetryExhausted = s.metrics.backendRetryExhausted := by
  unfold accept
  dsimp only
  split <;> rfl

theorem step_of_handleFrame {frame : Bytes} {rest : List Bytes} {c : Bool}
    (pc : s.pc = .frames (frame :: rest)) (open_ : s.accepted = false)
    (h : s.handleFrame cfg frame rest c = (s', event)) : TaskStep cfg s (.step c) event s' := by
  have active : ∀ ending, s.pc ≠ .finished ending := by simp [pc]
  simp only [handleFrame] at h
  split at h
  · rename_i on
    cases h
    exact .reforwardedFrame pc open_ on
  · rename_i notOn
    have off : s.reforwardsOn cfg frame = false := Bool.eq_false_iff.mpr notOn
    split at h
    · rename_i reason terminal
      split at h
      · rename_i premature
        cases h
        change TaskStep cfg s (.step c) none ((s.noted cfg frame).retryPrematureStop cfg)
        unfold retryPrematureStop
        split
        · rename_i failed
          exact .panicked pc open_ off terminal premature failed
        · rename_i body bumped
          exact .premature pc open_ off terminal premature bumped
      · rename_i notPremature
        have final : (s.noted cfg frame).premature cfg reason = false :=
          Bool.eq_false_iff.mpr notPremature
        simp only [countAndForwardFrame, sendThen] at h
        split at h
        · rename_i there
          cases h
          subst there
          exact .accepted pc open_ off terminal final
        · rename_i away
          cases h
          obtain rfl : c = false := by simpa using away
          exact .gone (by simp [accept, note]) (by simp [accept, note]) (by simp [accept, note])
            (by simp [accept, note]) (by simp [accept]) active
            (by rw [countUsage_backendRetryExhausted]; exact accept_backendRetryExhausted _ _)
    · rename_i inner
      split at h
      · rename_i marker
        cases h
        exact .dropped pc open_ off inner marker
      · rename_i notMarker
        have plain : ((cfg.classify frame).isDone || (cfg.classify frame).hasUsage) = false := by
          simpa using notMarker
        simp only [sendThen] at h
        split at h
        · rename_i there
          cases h
          subst there
          exact .forwarded pc open_ off inner plain
        · rename_i away
          cases h
          obtain rfl : c = false := by simpa using away
          exact .gone rfl rfl rfl rfl id active rfl

theorem step_of_settle {outcome : ReadOutcome} {c : Bool} (pc : s.pc = .settle outcome)
    (h : s.settle cfg outcome = (s', event)) : TaskStep cfg s (.step c) event s' := by
  unfold settle at h
  split at h
  · rename_i accepted
    cases h
    exact .completed pc accepted
  · rename_i notAccepted
    have open_ : s.accepted = false := Bool.eq_false_iff.mpr notAccepted
    cases outcome with
    | deadline | stall =>
        cases h
        exact .abandoned pc open_ (.inl (by simp))
    | eof =>
        dsimp only at h
        split at h
        · rename_i seen
          cases h
          exact .abandoned pc open_ (.inr seen)
        · rename_i unseen
          split at h
          · rename_i may
            cases h
            exact .reforwardedEnd pc open_ may
          · rename_i spent
            cases h
            exact .exhausted pc open_ (Bool.eq_false_iff.mpr unseen) (Bool.eq_false_iff.mpr spent) rfl

/-- Every step is one of the listed ones. -/
theorem step_of_nextTask (h : nextTask cfg s action = some (s', event)) :
    TaskStep cfg s action event s' := by
  have sent : ∀ {c : Bool} {e : TaskEvent} {pc : TaskPc}, s.sendThen c e pc = (s', event) →
      (∀ ending, s.pc ≠ .finished ending) →
      (c = true → TaskStep cfg s (.step true) (some e) { s with pc }) →
        TaskStep cfg s (.step c) event s' := by
    intro c e pc h active there
    unfold sendThen at h
    split at h
    · rename_i connected
      cases h
      subst connected
      exact there rfl
    · rename_i away
      cases h
      obtain rfl : c = false := by simpa using away
      exact .gone rfl rfl rfl rfl id active rfl
  cases action with
  | stalled =>
      simp only [nextTask] at h
      split at h
      · rename_i pc
        cases h
        exact .stalled pc
      · cases h
  | read item late =>
      simp only [nextTask] at h
      split at h
      · rename_i pc
        cases item with
        | chunk bytes =>
            dsimp only at h
            split at h
            · rename_i over_
              cases h
              obtain ⟨due, rfl⟩ : cfg.requestTimeout.isSome = true ∧ late = true := by
                simpa using over_
              exact .late pc due
            · rename_i inTime
              cases h
              exact .fed pc (Bool.eq_false_iff.mpr inTime)
        | failed error =>
            cases h
            exact .ended pc (by simp)
        | eof =>
            cases h
            exact .ended pc (by simp)
      · cases h
  | step connected =>
      simp only [nextTask] at h
      split at h
      · rename_i pc
        cases h
        exact .drained pc
      · rename_i frame rest pc
        split at h
        · rename_i accepted
          rw [Option.some.injEq, countAndForwardFrame, sendThen] at h
          split at h
          · rename_i there
            cases h
            subst there
            exact .passed pc accepted
          · rename_i away
            cases h
            obtain rfl : connected = false := by simpa using away
            exact .gone (by simp) (by simp) (by simp) (by simp) (by simp) (by simp [pc])
              (countUsage_backendRetryExhausted _ _ _)
        · rename_i notAccepted
          exact step_of_handleFrame pc (Bool.eq_false_iff.mpr notAccepted) (Option.some.inj h)
      · rename_i body pc
        exact sent (Option.some.inj h) (by simp [pc]) fun _ => .noticed pc
      · rename_i body pc
        split at h
        · rename_i bytes written
          cases h
          exact .retried pc (by simp [written])
        · rename_i fails
          cases h
          exact .unwritable pc fails
      · rename_i frame pc
        exact sent (Option.some.inj h) (by simp [pc]) fun _ => .errorFrame pc
      · rename_i outcome pc
        split at h
        · rename_i empty
          cases h
          exact .flushedNothing pc empty
        · rename_i some_
          exact sent (Option.some.inj h) (by simp [pc]) fun _ => .flushed pc some_
      · rename_i outcome pc
        exact step_of_settle pc (Option.some.inj h)
      · rename_i pc
        cases h
        exact .closed pc
      · cases h
  | respond outcome =>
      simp only [nextTask] at h
      split at h
      · rename_i pc
        split at h
        · rename_i success
          cases h
          exact .restarted (.inl pc) success
        · rename_i failure
          cases h
          exact .retryFailed pc (Bool.eq_false_iff.mpr failure)
      · rename_i frame pc
        split at h
        · rename_i success
          cases h
          exact .restarted (.inr ⟨frame, pc⟩) success
        · rename_i failure
          cases h
          exact .reforwardFailed pc (Bool.eq_false_iff.mpr failure)
      · cases h

end

end TinyLlb
