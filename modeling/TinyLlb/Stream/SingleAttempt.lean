import TinyLlb.Stream.RetryTermination

/-! # Content from one attempt

The client should see content and tool calls of one attempt only. Complete frames
set the flags that rule a re-send out. A frame that the stream breaks off in never
reaches the classification: its bytes are flushed to the client, and the attempt
still counts as empty.
-/

namespace TinyLlb

open RetryTask

/-- The bytes are the beginning of an event that carries content or tool calls; the
    rest of it never arrived. -/
def TruncatesContent (cfg : RetryConfig) (bytes rest : Bytes) : Prop :=
  SseFrameParser.IsEvent (bytes ++ rest) ∧ (cfg.classify (bytes ++ rest)).substantive = true

section

variable {cfg : RetryConfig} {guard : LifecycleGuard} {s s' : RetryTask} {action : TaskAction}
  {event : Option TaskEvent} {ts : List TaskTransition}

/-- The transition sends bytes of an event that carries content or tool calls.
    `remainder` says what the backend would still have sent of the event under way
    at the end of each attempt. -/
def SendsContent (cfg : RetryConfig) (remainder : Nat → Bytes) (tr : TaskTransition) : Prop :=
  match tr.event with
  | some (.frame frame) => (cfg.classify frame).substantive = true
  | some (.leftover bytes) => TruncatesContent cfg bytes (remainder tr.pre.attemptIndex)
  | _ => False

/-- Nothing more will be requested. -/
def Sealed (cfg : RetryConfig) (s : RetryTask) : Prop :=
  (s.pc.inAttempt = true ∧ (s.accepted = true ∨ s.sawAnything = true)) ∨ s.pc.leaving = true ∨
    ∃ outcome, s.pc = .settle outcome ∧ (outcome ≠ .eof ∨ s.mayReforward cfg = false)

theorem not_mayReforward (seen : s.sawAnything = true) : s.mayReforward cfg = false := by
  simp [mayReforward, seen]

theorem noted_sawAnything (cfg : RetryConfig) (seen : s.sawAnything = true) (frame : Bytes) :
    (s.noted cfg frame).sawAnything = true := by
  simp only [sawAnything, Bool.or_eq_true] at seen
  rcases seen with content | calls
  · simp [noted, note, sawAnything, content]
  · simp [noted, note, sawAnything, calls]

theorem Sealed.cases {pc : TaskPc} (sealed : Sealed cfg s) (here : s.pc = pc) :
    (pc.inAttempt = true ∧ (s.accepted = true ∨ s.sawAnything = true)) ∨ pc.leaving = true ∨
      ∃ outcome, pc = .settle outcome ∧ (outcome ≠ .eof ∨ s.mayReforward cfg = false) := by
  unfold Sealed at sealed
  rw [here] at sealed
  exact sealed

theorem Sealed.seen {frame : Bytes} {rest : List Bytes} (sealed : Sealed cfg s)
    (pc : s.pc = .frames (frame :: rest)) (open_ : s.accepted = false) : s.sawAnything = true := by
  rcases sealed.cases pc with ⟨-, yes | seen⟩ | left | ⟨outcome, at_, -⟩
  · cases open_.symm.trans yes
  · exact seen
  · cases left
  · cases at_

theorem Sealed.elsewhere {pc : TaskPc} (sealed : Sealed cfg s) (here : s.pc = pc)
    (outside : pc.inAttempt = false) (active : pc.leaving = false) : False := by
  rcases sealed.cases here with ⟨inside, -⟩ | left | ⟨outcome, rfl, -⟩
  · cases outside.symm.trans inside
  · cases active.symm.trans left
  · cases outside

theorem Sealed.kept {pc : TaskPc} {t : RetryTask} (sealed : Sealed cfg s) (here : s.pc = pc)
    (active : pc.leaving = false) (unsettled : ∀ outcome, pc ≠ .settle outcome)
    (accepted : s.accepted = true → t.accepted = true)
    (seen : s.sawAnything = true → t.sawAnything = true) (inside : t.pc.inAttempt = true) :
    Sealed cfg t := by
  rcases sealed.cases here with ⟨-, why⟩ | left | ⟨outcome, at_, -⟩
  · exact .inl ⟨inside, why.imp accepted seen⟩
  · cases active.symm.trans left
  · exact absurd at_ (unsettled outcome)

theorem TaskStep.sealed (step : TaskStep cfg s action event s') (sealed : Sealed cfg s) :
    Sealed cfg s' ∧ s'.attemptIndex = s.attemptIndex ∧ ∀ e ∈ event, e.isRequest = false := by
  have quiet : ∀ {e : TaskEvent}, e.isRequest = false → ∀ x ∈ some e, x.isRequest = false := by
    rintro e silent x ⟨⟩
    exact silent
  cases step with
  | reforwardedFrame pc open_ on =>
      simp only [reforwardsOn, Bool.and_eq_true] at on
      have seen := noted_sawAnything cfg (sealed.seen pc open_)
      cases (not_mayReforward (seen _)).symm.trans on.2
  | premature pc open_ off terminal premature | panicked pc open_ off terminal premature =>
      have seen := noted_sawAnything cfg (sealed.seen pc open_)
      cases (lt_of_premature premature).2.2.symm.trans (seen _)
  | reforwardedEnd pc open_ may =>
      rcases sealed.cases pc with ⟨-, yes | seen⟩ | left | ⟨outcome, ⟨⟩, other | spent⟩
      · cases open_.symm.trans yes
      · cases (not_mayReforward seen).symm.trans may
      · cases left
      · exact absurd rfl other
      · cases spent.symm.trans may
  | noticed pc | retried pc | errorFrame pc | unwritable pc | retryFailed pc | reforwardFailed pc =>
      exact (sealed.elsewhere pc rfl rfl).elim
  | restarted pc =>
      rcases pc with pc | ⟨frame, pc⟩
      · exact (sealed.elsewhere pc rfl rfl).elim
      · exact (sealed.elsewhere pc rfl rfl).elim
  | gone attempt transientAttempt =>
      refine ⟨.inr (.inl rfl), ?_, by simp⟩
      change _ + _ = _
      rw [attempt, transientAttempt, attemptIndex]
  | completed | abandoned | exhausted => exact ⟨.inr (.inl rfl), rfl, by simp⟩
  | closed =>
      refine ⟨.inr (.inl rfl), rfl, ?_⟩
      split
      · simp
      · exact quiet rfl
  | stalled pc | late pc | fed pc | ended pc | drained pc | flushedNothing pc =>
      exact ⟨sealed.kept pc rfl (by simp) id id rfl, rfl, by simp⟩
  | flushed pc => exact ⟨sealed.kept pc rfl (by simp) id id rfl, rfl, quiet rfl⟩
  | @passed frame rest pc accepted =>
      refine ⟨.inl ⟨rfl, .inl ((countUsage_accepted _ _ _).trans accepted)⟩, ?_, quiet rfl⟩
      simp [attemptIndex]
  | accepted =>
      refine ⟨.inl ⟨rfl, .inl (countUsage_accepted _ _ _)⟩, ?_, quiet rfl⟩
      simp [attemptIndex, accept, noted, note]
  | @dropped c frame rest pc open_ =>
      have seen := noted_sawAnything cfg (sealed.seen pc open_)
      exact ⟨.inl ⟨rfl, .inr (seen frame)⟩, rfl, by simp⟩
  | @forwarded frame rest pc open_ =>
      have seen := noted_sawAnything cfg (sealed.seen pc open_)
      exact ⟨.inl ⟨rfl, .inr (seen frame)⟩, rfl, quiet rfl⟩

theorem Sealed.of_exec {t : RetryTask} (sealed : Sealed cfg s)
    (run : (retryStream cfg guard).Exec s ts t) :
    (Sealed cfg t ∧ t.attemptIndex = s.attemptIndex) ∧
      ∀ tr ∈ ts, tr.pre.attemptIndex = s.attemptIndex ∧ ∀ e ∈ tr.event, e.isRequest = false := by
  induction run with
  | nil => exact ⟨⟨sealed, rfl⟩, by simp⟩
  | snoc whole next ih =>
      obtain ⟨⟨before, same⟩, earlier⟩ := ih
      obtain ⟨after, kept, silent⟩ := (step_of_nextTask next).sealed before
      refine ⟨⟨after, kept.trans same⟩, ?_⟩
      intro tr member
      rcases List.mem_append.mp member with first | last
      · exact earlier tr first
      · obtain rfl := List.mem_singleton.mp last
        exact ⟨same, silent⟩

/-- The task is about to flush what an attempt broke off in, and would send the
    request again after it. -/
def FlushesForRetry (cfg : RetryConfig) (tr : TaskTransition) : Prop :=
  tr.pre.pc = .flush .eof ∧ tr.action = .step true ∧ tr.pre.parser.buffer ≠ [] ∧
    tr.pre.accepted = false ∧ tr.pre.mayReforward cfg = true

theorem TaskStep.sealed_of_content {remainder : Nat → Bytes} (step : TaskStep cfg s action event s')
    (content : SendsContent cfg remainder ⟨s, action, event, s'⟩)
    (kept : FlushesForRetry cfg ⟨s, action, event, s'⟩ →
      ¬ TruncatesContent cfg s.parser.buffer (remainder s.attemptIndex)) :
    Sealed cfg s' ∧ s'.attemptIndex = s.attemptIndex := by
  cases step with
  | @flushed outcome pc some_ =>
      refine ⟨?_, rfl⟩
      by_cases accepted : s.accepted = true
      · exact .inl ⟨rfl, .inl accepted⟩
      refine .inr (.inr ⟨outcome, rfl, ?_⟩)
      by_cases eof : outcome = .eof
      · subst eof
        right
        rw [Bool.eq_false_iff]
        intro may
        exact kept ⟨pc, rfl, some_, Bool.eq_false_iff.mpr accepted, may⟩ content
      · exact .inl eof
  | passed pc accepted =>
      refine ⟨.inl ⟨rfl, .inl ((countUsage_accepted _ _ _).trans accepted)⟩, ?_⟩
      simp [attemptIndex]
  | accepted =>
      refine ⟨.inl ⟨rfl, .inl (countUsage_accepted _ _ _)⟩, ?_⟩
      simp [attemptIndex, accept, noted, note]
  | @forwarded frame rest =>
      refine ⟨.inl ⟨rfl, .inr ?_⟩, rfl⟩
      have found : ((cfg.classify frame).hasContent || (cfg.classify frame).hasToolCalls) = true :=
        content
      rcases Bool.or_eq_true _ _ ▸ found with said | called
      · simp [noted, note, sawAnything, said]
      · simp [noted, note, sawAnything, called]
  | errorFrame | closed => exact ⟨.inr (.inl rfl), rfl⟩
  | _ => cases content

/-- Content and tool calls reach the client from one attempt: after the first byte
    of such an event nothing is requested any more. -/
def ContentFromOneAttempt (cfg : RetryConfig) (remainder : Nat → Bytes)
    (ts : List TaskTransition) : Prop :=
  ∀ before tr after, ts = before ++ tr :: after → SendsContent cfg remainder tr →
    ∀ later ∈ after, later.pre.attemptIndex = tr.pre.attemptIndex ∧
      ∀ e ∈ later.event, e.isRequest = false

/-- No attempt that is to be replaced breaks off inside an event with content. -/
def BreaksOffOutside (cfg : RetryConfig) (remainder : Nat → Bytes) (ts : List TaskTransition) : Prop :=
  ∀ tr ∈ ts, FlushesForRetry cfg tr →
    ¬ TruncatesContent cfg tr.pre.parser.buffer (remainder tr.pre.attemptIndex)

/-- A broken event is flushed, and the request that follows replaces its attempt. -/
theorem requests_after_flush {tr : TaskTransition} {after : List TaskTransition} {ending : Ending}
    (flushes : FlushesForRetry cfg tr) (next : nextTask cfg tr.pre tr.action = some (tr.post, tr.event))
    (run : (retryStream cfg guard).Exec tr.post after s) (over_ : s.pc = .finished ending) :
    tr.event = some (.leftover tr.pre.parser.buffer) ∧
      ∃ later ∈ after, ∃ e ∈ later.event, e.isRequest = true := by
  obtain ⟨v, a, event, w⟩ := tr
  obtain ⟨pc, there, some_, open_, may⟩ := flushes
  dsimp only at pc there some_ open_ may next run ⊢
  subst there
  simp only [nextTask, pc, some_, if_false, sendThen, if_true, Option.some.injEq] at next
  cases next
  refine ⟨rfl, ?_⟩
  obtain ⟨later, rest, rfl, -, second, -⟩ := run.uncons fun same => by
    rw [same] at over_
    cases over_
  obtain ⟨e, event, reforward⟩ :=
    reforward_of_settle (s := { v with pc := .settle .eof }) rfl open_ may second
  exact ⟨later, List.mem_cons_self, e, event, by simp [TaskEvent.isRequest, reforward]⟩

/-- Content comes from one attempt in every run that meets the condition, and in a
    finished run only then. -/
theorem content_from_one_attempt_iff (remainder : Nat → Bytes)
    (run : (retryStream cfg guard).Exec (retryStream cfg guard).start ts s) :
    (BreaksOffOutside cfg remainder ts → ContentFromOneAttempt cfg remainder ts) ∧
      ((∃ ending, s.pc = .finished ending) → ContentFromOneAttempt cfg remainder ts →
        BreaksOffOutside cfg remainder ts) := by
  constructor
  · rintro outside before tr after rfl content
    obtain ⟨first, next, second⟩ := run.split_at
    obtain ⟨sealed, same⟩ := (step_of_nextTask next).sealed_of_content content
      (outside tr (by simp))
    intro later member
    obtain ⟨index, silent⟩ := (sealed.of_exec second).2 later member
    exact ⟨index.trans same, silent⟩
  · rintro ⟨ending, over_⟩ one tr member flushes truncates
    obtain ⟨before, after, rfl, first, second⟩ := run.split_of_mem member
    obtain ⟨sent, later, memberLater, e, event, request⟩ :=
      requests_after_flush flushes (run.step_of_mem member) second over_
    have content : SendsContent cfg remainder tr := by
      unfold SendsContent
      rw [sent]
      exact truncates
    have silent := (one before tr after rfl content later memberLater).2 e event
    cases silent.symm.trans request

end

theorem content_from_one_attempt_iff_retried :
    (retrySample.trace retriedTurn).length = 16 ∧
      ContentFromOneAttempt .sample (fun _ => [lf, lf]) (retrySample.trace retriedTurn) := by
  obtain ⟨size, whole⟩ : (retrySample.trace retriedTurn).length = 16 ∧
      ∀ tr ∈ retrySample.trace retriedTurn, tr.pre.parser.buffer = [] := by
    decide +kernel
  refine ⟨size, ?_⟩
  have run := retrySample.exec_after retriedTurn
  apply (content_from_one_attempt_iff (fun _ => [lf, lf]) run).1
  intro tr member flushes
  exact absurd (whole tr member) flushes.2.2.1

/-- An event with content that lacks its blank line. -/
def brokenEvent : Bytes := ascii ("data: " ++ sampleContent)

/-- The event arrives without its blank line, and the stream ends. -/
def brokenTurn : List TaskAction :=
  [.read (.chunk brokenEvent) false, .step true, .read .eof false, .step true, .step true]

/-- The content of the broken event is flushed, and the request is sent again. -/
theorem content_flushed_and_sent_again :
    ¬ ContentFromOneAttempt .sample (fun _ => [lf, lf]) (retrySample.trace brokenTurn) := by
  intro one
  obtain ⟨before, flush, settle, split, sent, delay, again⟩ :
      ∃ before flush settle, retrySample.trace brokenTurn = before ++ flush :: [settle] ∧
        flush.event = some (.leftover brokenEvent) ∧
          ∃ delay, settle.event = some (.reforwarded delay) :=
    ⟨(retrySample.trace brokenTurn).take 3, _, _, rfl, rfl, _, rfl⟩
  have event : SseFrameParser.IsEvent (brokenEvent ++ [lf, lf]) :=
    SseFrameParser.isEvent_of_find (by decide +kernel)
  have substantive : (RetryConfig.sample.classify (brokenEvent ++ [lf, lf])).substantive = true := by
    decide +kernel
  have content : SendsContent .sample (fun _ => [lf, lf]) flush := by
    unfold SendsContent
    rw [sent]
    exact ⟨event, substantive⟩
  have silent := (one before flush [settle] split content settle (by simp)).2 _ again
  cases silent

end TinyLlb
