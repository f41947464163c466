import TinyLlb.Stream.MetricStream
import TinyLlb.Stream.RetryTermination

/-! # What an accepted first attempt passes on

With nothing retried, the retry task sends the events of the one attempt and what
the last of them broke off in. Events behind the terminal frame all go out. A
marker or a usage frame ahead of it does not.
-/

namespace TinyLlb

open RetryTask

/-- The comment line that announces a retry. -/
def noticeText (attempt : Nat) : Bytes :=
  (": tinyllb: premature-stop retry attempt=" ++ toString attempt ++
    " fired — discarded failed reasoning, retrying\n\n").toUTF8.toList

/-- The bytes an event puts into the client's body. -/
def TaskEvent.bytes : TaskEvent → Bytes
  | frame b | leftover b => b
  | notice attempt => noticeText attempt
  | abort | retried _ | reforwarded _ => []

/-- All bytes sent to the client. -/
def clientBytes (ts : List TaskTransition) : Bytes := (Machine.events ts).flatMap TaskEvent.bytes

/-- The events that are passed on when nothing is retried. -/
def passedOn (cfg : RetryConfig) : List Bytes → List Bytes
  | [] => []
  | frame :: rest =>
      if (cfg.classify frame).finishReason.isSome then frame :: rest
      else if (cfg.classify frame).isDone || (cfg.classify frame).hasUsage then passedOn cfg rest
      else frame :: passedOn cfg rest

/-- The chunks that the task read in time. -/
def chunkRead? (tr : TaskTransition) : Option Bytes :=
  match tr.action with
  | .read (.chunk bytes) _ => some bytes
  | _ => none

def chunksRead (ts : List TaskTransition) : List Bytes := ts.filterMap chunkRead?

/-- The client stays, and no retry, re-forward, stall or deadline fires. -/
structure Undisturbed (cfg : RetryConfig) (ts : List TaskTransition) : Prop where
  connected : Connected ts
  unasked : ∀ tr ∈ ts, ∀ e ∈ tr.event, e.isRequest = false
  running : ∀ tr ∈ ts, tr.action ≠ .stalled
  inTime : ∀ tr ∈ ts, ∀ bytes, tr.action = .read (.chunk bytes) true → cfg.requestTimeout = none

/-- What the attempt broke off in has been flushed. -/
def TaskPc.flushed : TaskPc → Bool
  | settle _ | closing | finished _ => true
  | _ => false

section

variable {cfg : RetryConfig} {guard : LifecycleGuard} {s s' : RetryTask} {action : TaskAction}
  {event : Option TaskEvent} {ts : List TaskTransition}

theorem passedOn_snoc (cfg : RetryConfig) (frames : List Bytes) (frame : Bytes) :
    passedOn cfg (frames ++ [frame]) =
      if fromTerminal cfg frames = [] ∧ (cfg.classify frame).finishReason = none ∧
        ((cfg.classify frame).isDone || (cfg.classify frame).hasUsage) = true
      then passedOn cfg frames else passedOn cfg frames ++ [frame] := by
  induction frames with
  | nil =>
      cases reason : (cfg.classify frame).finishReason <;> simp [passedOn, fromTerminal, reason]
  | cons first rest ih =>
      cases reason : (cfg.classify first).finishReason with
      | some reason' => simp [passedOn, fromTerminal, reason]
      | none =>
          have skip : fromTerminal cfg (first :: rest) = fromTerminal cfg rest := by
            simp [fromTerminal, reason]
          rw [skip]
          simp only [List.cons_append, passedOn, reason, Option.isSome_none, Bool.false_eq_true,
            if_false, ih]
          split <;> split <;> rfl

/-- What has been sent, in terms of the events dealt with. -/
structure PassedView (cfg : RetryConfig) (sent : Bytes) (frames : List Bytes) (s : RetryTask) :
    Prop where
  unasked : s.pc ≠ .awaitRetry ∧ ∀ frame, s.pc ≠ .awaitReforward frame
  sent : s.pc.inAttempt = true ∨ s.streamOk = true →
    sent = (passedOn cfg frames).flatten ++ if s.pc.flushed then s.parser.buffer else []

theorem TaskStep.passedView {sent : Bytes} {frames : List Bytes}
    (step : TaskStep cfg s action event s') (there : action ≠ .step false)
    (silent : ∀ e ∈ event, e.isRequest = false) (concluded : Concluded s)
    (terminal : s.pc.inAttempt = true → (s.accepted = true ↔ fromTerminal cfg frames ≠ []))
    (held : PassedView cfg sent frames s) :
    PassedView cfg (sent ++ event.toList.flatMap TaskEvent.bytes)
      (handleOn frames ⟨s, action, event, s'⟩) s' := by
  cases step with
  | gone => exact absurd rfl there
  | reforwardedFrame | reforwardedEnd | retried => exact absurd (silent _ rfl) (by
      simp [TaskEvent.isRequest, TaskEvent.isRetry, TaskEvent.isReforward])
  | restarted pc =>
      rcases pc with pc | ⟨frame, pc⟩
      · exact absurd pc held.unasked.1
      · exact absurd pc (held.unasked.2 frame)
  | retryFailed pc => exact absurd pc held.unasked.1
  | reforwardFailed pc => exact absurd pc (held.unasked.2 _)
  | panicked pc | premature pc | noticed pc | unwritable pc | errorFrame pc | abandoned pc
  | exhausted pc =>
      refine ⟨by simp, ?_⟩
      intro here
      rcases here with inside | ok
      · cases inside
      · cases (concluded.notOk pc rfl).symm.trans ok
  | stalled pc | late pc | fed pc | ended pc | drained pc =>
      have before := held.sent (.inl (by rw [pc]; rfl))
      refine ⟨by simp, fun _ => ?_⟩
      simpa [handleOn, handled?, pc, TaskPc.flushed] using before
  | flushedNothing pc empty =>
      have before := held.sent (.inl (by rw [pc]; rfl))
      refine ⟨by simp, fun _ => ?_⟩
      simpa [handleOn, handled?, pc, TaskPc.flushed, empty] using before
  | flushed pc =>
      have before := held.sent (.inl (by rw [pc]; rfl))
      refine ⟨by simp, fun _ => ?_⟩
      simp [handleOn, handled?, pc, TaskPc.flushed, before, TaskEvent.bytes]
  | completed pc =>
      have before := held.sent (.inl (by rw [pc]; rfl))
      refine ⟨by simp, fun _ => ?_⟩
      simpa [handleOn, handled?, pc, TaskPc.flushed] using before
  | @closed c pc =>
      obtain rfl : c = true := by simpa using there
      refine ⟨by simp, fun here => ?_⟩
      have ok : s.streamOk = true := here.resolve_left (by simp [TaskPc.inAttempt])
      have before := held.sent (.inr ok)
      simpa [handleOn, handled?, pc, TaskPc.flushed, ok] using before
  | @passed frame rest pc accepted =>
      have inside : s.pc.inAttempt = true := by rw [pc]; rfl
      have before := held.sent (.inl inside)
      have some_ := (terminal inside).mp accepted
      refine ⟨by simp, fun _ => ?_⟩
      simp only [handleOn, handled?, pc, Option.toList, passedOn_snoc, some_, false_and, if_false]
      simpa [TaskPc.flushed, pc, TaskEvent.bytes] using before
  | @accepted frame rest reason pc open_ off final =>
      have before := held.sent (.inl (by rw [pc]; rfl))
      refine ⟨by simp, fun _ => ?_⟩
      simp only [handleOn, handled?, pc, Option.toList, passedOn_snoc, final, reduceCtorEq, false_and,
        and_false, if_false]
      simpa [TaskPc.flushed, pc, TaskEvent.bytes] using before
  | @forwarded frame rest pc open_ off inner plain =>
      have before := held.sent (.inl (by rw [pc]; rfl))
      refine ⟨by simp, fun _ => ?_⟩
      simp only [handleOn, handled?, pc, Option.toList, passedOn_snoc, plain, Bool.false_eq_true,
        and_false, if_false]
      simpa [TaskPc.flushed, pc, TaskEvent.bytes] using before
  | @dropped c frame rest pc open_ off inner marker =>
      have inside : s.pc.inAttempt = true := by rw [pc]; rfl
      have before := held.sent (.inl inside)
      have none_ : fromTerminal cfg frames = [] := by
        by_contra some_
        cases open_.symm.trans ((terminal inside).mpr some_)
      refine ⟨by simp, fun _ => ?_⟩
      simp only [handleOn, handled?, pc, Option.toList, passedOn_snoc, none_, inner, marker, and_self,
        if_true]
      simpa [TaskPc.flushed, pc] using before

theorem clientBytes_snoc (ts : List TaskTransition) (tr : TaskTransition) :
    clientBytes (ts ++ [tr]) = clientBytes ts ++ tr.event.toList.flatMap TaskEvent.bytes := by
  simp [clientBytes]

theorem passedView_of_run {flowId : FlowId} {estimatedCost : Int} (connected : Connected ts)
    (unasked : ∀ tr ∈ ts, ∀ e ∈ tr.event, e.isRequest = false)
    (run : (retryStream cfg (.new flowId estimatedCost)).Exec
      (retryStream cfg (.new flowId estimatedCost)).start ts s) :
    PassedView cfg (clientBytes ts) (handledFrames ts) s := by
  induction run with
  | nil => exact ⟨by simp [retryStream, RetryTask.start], fun _ => rfl⟩
  | @snoc ts v a w e whole next ih =>
      have earlier : Connected ts := fun tr member => connected tr (List.mem_append_left _ member)
      have before := ih earlier fun tr member => unasked tr (List.mem_append_left _ member)
      have counted := counted_of_run earlier whole
      rw [handledFrames_snoc, clientBytes_snoc]
      exact (step_of_nextTask next).passedView (connected ⟨v, a, e, w⟩ (by simp))
        (unasked ⟨v, a, e, w⟩ (by simp)) (concluded_of_run rfl earlier whole)
        (fun inside => counted.terminal (.inl inside)) before

theorem length_passedOn_le (cfg : RetryConfig) (frames : List Bytes) :
    (passedOn cfg frames).flatten.length ≤ frames.flatten.length := by
  induction frames with
  | nil => exact Nat.le_refl _
  | cons frame rest ih =>
      unfold passedOn
      split
      · exact Nat.le_refl _
      · split
        · rw [List.flatten_cons, List.length_append]
          omega
        · rw [List.flatten_cons, List.flatten_cons, List.length_append, List.length_append]
          omega

/-- The events ahead of the first one with a finish reason. -/
def beforeTerminal (cfg : RetryConfig) (frames : List Bytes) : List Bytes :=
  frames.takeWhile fun frame => (cfg.classify frame).finishReason.isNone

/-- All bytes are passed on exactly where no marker and no usage frame stands ahead
    of the terminal frame. -/
theorem flatten_passedOn_iff {frames : List Bytes} (filled : ∀ frame ∈ frames, frame ≠ []) :
    (passedOn cfg frames).flatten = frames.flatten ↔
      ∀ frame ∈ beforeTerminal cfg frames,
        ((cfg.classify frame).isDone || (cfg.classify frame).hasUsage) = false := by
  induction frames with
  | nil => simp [passedOn, beforeTerminal]
  | cons frame rest ih =>
      have later := ih fun frame member => filled frame (List.mem_cons_of_mem _ member)
      have size := List.length_pos_iff.mpr (filled frame List.mem_cons_self)
      cases reason : (cfg.classify frame).finishReason with
      | some reason' => simp [passedOn, beforeTerminal, reason]
      | none =>
          have ahead : beforeTerminal cfg (frame :: rest) = frame :: beforeTerminal cfg rest := by
            simp [beforeTerminal, reason]
          rw [ahead, List.forall_mem_cons, ← later]
          simp only [passedOn, reason, Option.isSome_none, Bool.false_eq_true, if_false]
          cases marker : (cfg.classify frame).isDone || (cfg.classify frame).hasUsage with
          | true =>
              have shorter := length_passedOn_le cfg rest
              simp only [if_true, Bool.true_eq_false, false_and, iff_false]
              intro same
              have sizes := congrArg List.length same
              rw [List.flatten_cons, List.length_append] at sizes
              omega
          | false => simp

theorem attemptBytes_eq_chunks {flowId : FlowId} {estimatedCost : Int} (calm : Undisturbed cfg ts)
    (run : (retryStream cfg (.new flowId estimatedCost)).Exec
      (retryStream cfg (.new flowId estimatedCost)).start ts s) :
    attemptBytes cfg ts = (chunksRead ts).flatten := by
  induction run with
  | nil => rfl
  | @snoc ts v a w e whole next ih =>
      have earlier : Undisturbed cfg ts :=
        ⟨fun tr member => calm.connected tr (List.mem_append_left _ member),
          fun tr member => calm.unasked tr (List.mem_append_left _ member),
          fun tr member => calm.running tr (List.mem_append_left _ member),
          fun tr member => calm.inTime tr (List.mem_append_left _ member)⟩
      have before := ih earlier
      have unasked := (passedView_of_run earlier.connected earlier.unasked whole).unasked
      rw [attemptBytes_snoc, before]
      simp only [chunksRead, List.filterMap_append, List.flatten_append]
      cases a with
      | read item late =>
          cases item with
          | chunk bytes =>
              have inTime : (cfg.requestTimeout.isSome && late) = false := by
                cases late with
                | false => simp
                | true =>
                    have none_ := calm.inTime ⟨v, .read (.chunk bytes) true, e, w⟩ (by simp) bytes rfl
                    simp [none_]
              simp [readOn, chunkRead?, inTime]
          | failed | eof => simp [readOn, chunkRead?]
      | stalled | step => simp [readOn, chunkRead?]
      | respond outcome =>
          have step : TaskStep cfg v (.respond outcome) e w := step_of_nextTask next
          cases step with
          | restarted pc =>
              rcases pc with pc | ⟨frame, pc⟩
              · exact absurd pc unasked.1
              · exact absurd pc (unasked.2 frame)
          | retryFailed pc => exact absurd pc unasked.1
          | reforwardFailed pc => exact absurd pc (unasked.2 _)

/-- An accepted attempt that nothing disturbed ends well, with all events of the
    stream dealt with. -/
theorem extract_chunks {flowId : FlowId} {estimatedCost : Int} {ending : Ending}
    (calm : Undisturbed cfg ts)
    (run : (retryStream cfg (.new flowId estimatedCost)).Exec
      (retryStream cfg (.new flowId estimatedCost)).start ts s)
    (over_ : s.pc = .finished ending) (accepted : s.accepted = true) :
    s.streamOk = true ∧ SseFrameParser.cutter.extract (chunksRead ts).flatten =
      (handledFrames ts, s.parser.buffer) := by
  have concluded := concluded_of_run rfl calm.connected run
  have ok : s.streamOk = true := (concluded.outcome (by rw [over_]; rfl)).trans accepted
  have cut := extract_attempt run (.inr ok)
  rw [attemptBytes_eq_chunks calm run] at cut
  exact ⟨ok, by simpa [over_, TaskPc.pending] using cut⟩

/-- For every stream and every chunking of it: where the first attempt is accepted
    and nothing disturbs it, the client gets what the backend sent and the plain
    stream would have passed on, exactly if no marker and no usage frame stands
    ahead of the terminal frame. -/
theorem pass_through_iff {flowId : FlowId} {estimatedCost : Int} {ending : Ending}
    {metric : MetricStream} {polls : List (Nat × ReadItem)} (calm : Undisturbed cfg ts)
    (run : (retryStream cfg (.new flowId estimatedCost)).Exec
      (retryStream cfg (.new flowId estimatedCost)).start ts s)
    (over_ : s.pc = .finished ending) (accepted : s.accepted = true)
    (polled : metric.Polls (chunksRead ts) polls) :
    (clientBytes ts = (chunksRead ts).flatten ∧
        clientBytes ts = (metric.pollAll cfg.arith polls).2) ↔
      ∀ frame ∈ beforeTerminal cfg (SseFrameParser.cutter.extract (chunksRead ts).flatten).1,
        ((cfg.classify frame).isDone || (cfg.classify frame).hasUsage) = false := by
  obtain ⟨ok, view⟩ := extract_chunks calm run over_ accepted
  have sent : clientBytes ts = (passedOn cfg (handledFrames ts)).flatten ++ s.parser.buffer := by
    have all := (passedView_of_run calm.connected calm.unasked run).sent (.inr ok)
    simpa [over_, TaskPc.flushed] using all
  have whole : (handledFrames ts).flatten ++ s.parser.buffer = (chunksRead ts).flatten := by
    have joined := SseFrameParser.cutter.flatten_extract (chunksRead ts).flatten
    rwa [view] at joined
  have filled : ∀ frame ∈ handledFrames ts, frame ≠ [] := by
    rintro frame member rfl
    have found := SseFrameParser.cutter.find_frame (chunksRead ts).flatten (f := [])
      (by rw [view]; exact member)
    simpa using SseFrameParser.cutter.pos found
  rw [MetricStream.pollAll_eq cfg.arith polled, and_self, sent, view, ← flatten_passedOn_iff filled,
    ← whole, List.append_cancel_right_eq]

end

/-- A turn of three events, read in two chunks, and the end of the stream. -/
def wholeTurn (first second third : String) : List TaskAction :=
  [.read (.chunk (sampleEvent first)) false, .step true, .step true,
    .read (.chunk (sampleEvent second ++ sampleEvent third)) false, .step true, .step true, .step true,
    .read .eof false, .step true, .step true, .step true]

theorem undisturbed_wholeTurn {first second third : String}
    (unasked : ∀ tr ∈ retrySample.trace (wholeTurn first second third), ∀ e ∈ tr.event,
      e.isRequest = false) :
    Undisturbed .sample (retrySample.trace (wholeTurn first second third)) := by
  refine ⟨fun tr member => ?_, unasked, fun tr member => ?_, fun _ _ _ _ => rfl⟩
  · exact Machine.action_of_trace (P := (· ≠ .step false)) (by simp [wholeTurn]) member
  · exact Machine.action_of_trace (P := (· ≠ .stalled)) (by simp [wholeTurn]) member

/-- Polls of a list of chunks, all at the start of time. -/
def MetricStream.pollsOf (chunks : List Bytes) : List (Nat × ReadItem) :=
  chunks.map (fun chunk => (0, .chunk chunk)) ++ [(0, .eof)]

theorem MetricStream.polls_pollsOf {s : MetricStream} (unlimited : s.deadline = none)
    (chunks : List Bytes) : s.Polls chunks (pollsOf chunks) := by
  refine ⟨?_, by simp [unlimited]⟩
  simp [pollsOf, Function.comp_def]

def usageLast : List TaskAction := wholeTurn sampleContent sampleStop sampleUsage

theorem pass_through_iff_usage_last :
    clientBytes (retrySample.trace usageLast) =
      sampleEvent sampleContent ++ sampleEvent sampleStop ++ sampleEvent sampleUsage := by
  obtain ⟨unasked, weight, accepted, ahead, chunks⟩ :
      (∀ tr ∈ retrySample.trace usageLast, ∀ e ∈ tr.event, e.isRequest = false) ∧
      (retrySample.after usageLast).pc.weight = 0 ∧ (retrySample.after usageLast).accepted = true ∧
      (∀ frame ∈ beforeTerminal .sample (SseFrameParser.cutter.extract
          (chunksRead (retrySample.trace usageLast)).flatten).1,
        ((RetryConfig.sample.classify frame).isDone || (RetryConfig.sample.classify frame).hasUsage) =
          false) ∧
      (chunksRead (retrySample.trace usageLast)).flatten =
        sampleEvent sampleContent ++ sampleEvent sampleStop ++ sampleEvent sampleUsage := by
    decide +kernel
  obtain ⟨ending, over_⟩ := finished_of_weight weight
  have polled := MetricStream.polls_pollsOf (s := .new (.new ⟨"f"⟩ 100) none) rfl
    (chunksRead (retrySample.trace usageLast))
  have all := (pass_through_iff (undisturbed_wholeTurn unasked) (retrySample.exec_after usageLast) over_
    accepted polled).mpr ahead
  exact all.1.trans chunks

def usageFirst : List TaskAction := wholeTurn sampleContent sampleUsage sampleStop

/-- The usage frame ahead of the terminal frame never reaches the client. -/
theorem usage_frame_withheld :
    Undisturbed .sample (retrySample.trace usageFirst) ∧
      (∃ ending, (retrySample.after usageFirst).pc = .finished ending) ∧
      (retrySample.after usageFirst).accepted = true ∧
      clientBytes (retrySample.trace usageFirst) ≠
        (chunksRead (retrySample.trace usageFirst)).flatten := by
  obtain ⟨unasked, weight, accepted, withheld⟩ :
      (∀ tr ∈ retrySample.trace usageFirst, ∀ e ∈ tr.event, e.isRequest = false) ∧
      (retrySample.after usageFirst).pc.weight = 0 ∧
      (retrySample.after usageFirst).accepted = true ∧
      clientBytes (retrySample.trace usageFirst) ≠
        (chunksRead (retrySample.trace usageFirst)).flatten := by
    decide +kernel
  exact ⟨undisturbed_wholeTurn unasked, finished_of_weight weight, accepted, withheld⟩

end TinyLlb
