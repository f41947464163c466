import TinyLlb.Stream.TaskSteps

/-! # The current attempt in the history of a run

What the task has read from the attempt it is in, and which events of it the task
has dealt with, are functions of the run. The parser holds what is left: cutting
the bytes of the attempt gives the events dealt with, those still to come from the
current chunk, and the buffer.
-/

namespace TinyLlb

open RetryTask

abbrev TaskTransition := Transition RetryTask TaskAction TaskEvent

/-- The bytes read from the attempt, after one more transition. -/
def readOn (cfg : RetryConfig) (bytes : Bytes) (tr : TaskTransition) : Bytes :=
  match tr.action with
  | .read (.chunk chunk) late => if cfg.requestTimeout.isSome && late then bytes else bytes ++ chunk
  | .respond outcome => if outcome.isSuccess then [] else bytes
  | _ => bytes

/-- The bytes that the parser was fed from the latest attempt. -/
def attemptBytes (cfg : RetryConfig) (ts : List TaskTransition) : Bytes := ts.foldl (readOn cfg) []

/-- The event that a transition deals with. -/
def handled? (tr : TaskTransition) : Option Bytes :=
  match tr.pre.pc, tr.action with
  | .frames (frame :: _), .step _ => some frame
  | _, _ => none

def handleOn (frames : List Bytes) (tr : TaskTransition) : List Bytes :=
  match tr.action with
  | .respond outcome => if outcome.isSuccess then [] else frames
  | _ => frames ++ (handled? tr).toList

/-- The events of the latest attempt that have been dealt with. -/
def handledFrames (ts : List TaskTransition) : List Bytes := ts.foldl handleOn []

namespace TaskPc

/-- From the first read of an attempt to the decision at its end. -/
def inAttempt : TaskPc → Bool
  | reading | frames _ | flush _ | settle _ => true
  | _ => false

/-- Events of the current chunk that are still to be dealt with. -/
def pending : TaskPc → List Bytes
  | frames rest => rest
  | _ => []

/-- Nothing will be read any more. -/
def leaving : TaskPc → Bool
  | closing | finished _ => true
  | _ => false

end TaskPc

section

variable {cfg : RetryConfig} {guard : LifecycleGuard} {s s' : RetryTask} {action : TaskAction}
  {event : Option TaskEvent} {ts : List TaskTransition}

theorem attemptBytes_snoc (cfg : RetryConfig) (ts : List TaskTransition) (tr : TaskTransition) :
    attemptBytes cfg (ts ++ [tr]) = readOn cfg (attemptBytes cfg ts) tr := by
  rw [attemptBytes, List.foldl_append]
  rfl

theorem handledFrames_snoc (ts : List TaskTransition) (tr : TaskTransition) :
    handledFrames (ts ++ [tr]) = handleOn (handledFrames ts) tr := by
  rw [handledFrames, List.foldl_append]
  rfl

theorem TaskStep.streamOk_leaving (step : TaskStep cfg s action event s')
    (held : s.streamOk = true → s.pc.leaving = true) : s'.streamOk = true → s'.pc.leaving = true := by
  intro ok
  have moved : ∀ {t : RetryTask} {pc : TaskPc}, t.streamOk = true → t.streamOk = s.streamOk →
      s.pc = pc → pc.leaving = true := by
    intro t pc ok same here
    rw [← here]
    exact held (same ▸ ok)
  cases step with
  | gone | panicked | errorFrame | completed | abandoned | exhausted | closed | unwritable
  | retryFailed => rfl
  | reforwardFailed pc => cases moved ok rfl pc
  | restarted pc =>
      rcases pc with pc | ⟨frame, pc⟩
      · cases moved ok rfl pc
      · cases moved ok rfl pc
  | passed pc => cases moved ok (countUsage_streamOk _ _ _) pc
  | accepted pc => cases moved ok (countUsage_streamOk _ _ _) pc
  | stalled pc | late pc | fed pc | ended pc | drained pc | reforwardedFrame pc | premature pc
  | dropped pc | forwarded pc | noticed pc | retried pc | flushedNothing pc | flushed pc
  | reforwardedEnd pc => cases moved ok rfl pc

theorem leaving_of_streamOk (run : (retryStream cfg guard).Exec (retryStream cfg guard).start ts s) :
    s.streamOk = true → s.pc.leaving = true := by
  refine run.invariant (I := fun s => s.streamOk = true → s.pc.leaving = true) ?_ ?_
  · intro ok
    cases ok
  · intro v a w e held next
    exact (step_of_nextTask next).streamOk_leaving held

theorem not_streamOk_of_run {pc : TaskPc}
    (run : (retryStream cfg guard).Exec (retryStream cfg guard).start ts s) (here : s.pc = pc)
    (active : pc.leaving = false) : s.streamOk = false := by
  rw [Bool.eq_false_iff]
  intro ok
  have left := leaving_of_streamOk run ok
  rw [here, active] at left
  cases left

/-- Cutting the bytes of the attempt gives the events dealt with, those still to
    come, and the buffer. -/
def AttemptView (bytes : Bytes) (frames : List Bytes) (s : RetryTask) : Prop :=
  s.pc.inAttempt = true ∨ s.streamOk = true →
    SseFrameParser.cutter.extract bytes = (frames ++ s.pc.pending, s.parser.buffer)

theorem TaskStep.attemptView {bytes : Bytes} {frames : List Bytes}
    (step : TaskStep cfg s action event s') (leaving : s.streamOk = true → s.pc.leaving = true)
    (held : AttemptView bytes frames s) :
    AttemptView (readOn cfg bytes ⟨s, action, event, s'⟩) (handleOn frames ⟨s, action, event, s'⟩)
      s' := by
  intro here
  have busy : ∀ {pc : TaskPc}, s.pc = pc → pc.leaving = false → s.streamOk = false := by
    intro pc at_ active
    rw [Bool.eq_false_iff]
    intro ok
    have left := leaving ok
    rw [at_, active] at left
    cases left
  cases step with
  | stalled pc =>
      have before := held (.inl (by rw [pc]; rfl))
      simpa [readOn, handleOn, handled?, pc, TaskPc.pending] using before
  | late pc due =>
      have before := held (.inl (by rw [pc]; rfl))
      simpa [readOn, handleOn, handled?, pc, due, TaskPc.pending] using before
  | @ended item late pc over_ =>
      have before := held (.inl (by rw [pc]; rfl))
      cases item with
      | chunk bytes => exact absurd rfl (over_ bytes)
      | failed | eof => simpa [readOn, handleOn, handled?, pc, TaskPc.pending] using before
  | @fed chunk late pc inTime =>
      have before : SseFrameParser.cutter.extract bytes = (frames, s.parser.buffer) := by
        simpa [pc, TaskPc.pending] using held (.inl (by rw [pc]; rfl))
      have cut := SseFrameParser.cutter.extract_append bytes chunk
      rw [before] at cut
      simpa [readOn, handleOn, handled?, pc, inTime, TaskPc.pending, SseFrameParser.feed] using cut
  | drained pc =>
      have before := held (.inl (by rw [pc]; rfl))
      simpa [readOn, handleOn, handled?, pc, TaskPc.pending] using before
  | passed pc =>
      have before := held (.inl (by rw [pc]; rfl))
      simpa [readOn, handleOn, handled?, pc, TaskPc.pending] using before
  | accepted pc =>
      have before := held (.inl (by rw [pc]; rfl))
      simpa [readOn, handleOn, handled?, pc, TaskPc.pending, accept, noted, note] using before
  | dropped pc | forwarded pc =>
      have before := held (.inl (by rw [pc]; rfl))
      simpa [readOn, handleOn, handled?, pc, TaskPc.pending, noted, note] using before
  | flushedNothing pc | flushed pc | completed pc =>
      have before := held (.inl (by rw [pc]; rfl))
      simpa [readOn, handleOn, handled?, pc, TaskPc.pending] using before
  | restarted pc success => simp [readOn, handleOn, success, restart, SseFrameParser.new]; rfl
  | closed pc =>
      have before := held (here.imp_left (by simp [TaskPc.inAttempt]))
      simpa [readOn, handleOn, handled?, pc, TaskPc.pending] using before
  | @gone t attempt transientAttempt ok parser kept active =>
      rcases here with inside | okT
      · cases inside
      · have okS : s.streamOk = true := ok.symm.trans okT
        have before := held (.inr okS)
        have left := leaving okS
        cases pc : s.pc with
        | finished ending => exact absurd pc (active ending)
        | closing => simpa [readOn, handleOn, handled?, pc, TaskPc.pending, parser] using before
        | _ =>
            rw [pc] at left
            cases left
  | @reforwardFailed outcome frame pc =>
      rcases here with inside | ok
      · cases frame <;> cases inside
      · cases (busy pc rfl).symm.trans ok
  | panicked pc | premature pc | reforwardedFrame pc | noticed pc | retried pc | errorFrame pc
  | abandoned pc | reforwardedEnd pc | exhausted pc | unwritable pc | retryFailed pc =>
      rcases here with inside | ok
      · cases inside
      · cases (busy pc rfl).symm.trans ok

/-- Cutting the bytes of the attempt gives what the task has dealt with and what
    it still holds. -/
theorem extract_attempt (run : (retryStream cfg guard).Exec (retryStream cfg guard).start ts s) :
    AttemptView (attemptBytes cfg ts) (handledFrames ts) s := by
  induction run with
  | nil =>
      intro _
      rfl
  | snoc whole next ih =>
      rw [attemptBytes_snoc, handledFrames_snoc]
      exact (step_of_nextTask next).attemptView (leaving_of_streamOk whole) ih

end

end TinyLlb
