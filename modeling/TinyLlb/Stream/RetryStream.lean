import TinyLlb.Gateway.Lifecycle
import TinyLlb.Library.Machine
import TinyLlb.Stream.Reforward

/-! # The retry-capable stream

`spawn_retry_stream` runs as one task between the backend and the client. It reads
the backend's body attempt by attempt, passes its events on, and has two budgets:
one for degenerate turns, which are sent again with a higher temperature, and one
for failures of the backend, where the same body is sent again. Each action below
is what the task finds at one of its awaits, or one step between two of them: the
stall flag or the next piece of the body, whether the client still takes what it
is sent, and what a re-send comes back with.

Spans, log lines and the event counters of the lifecycle are left out.
-/

namespace TinyLlb

/-- Nothing where the assignment to `temperature` panics. -/
def bumpTemperature (body : Json) (attempt : Nat) (policy : RetryPolicy) : Option Json :=
  let base :=
    match body.get "temperature" with
    | some (.number n) => n.asFloat?.getD policy.defaultTemperature
    | _ => policy.defaultTemperature
  let newTemp := min (base + attempt * policy.temperatureStep) policy.maxTemperature
  body.set "temperature" (.number (.float newTemp))

/-- What the task captures. -/
structure RetryConfig where
  policy : RetryPolicy
  transientPolicy : TransientRetry
  requestTimeout : Option Duration
  fromSlice : Bytes → Option Json
  toVec : Json → Option Bytes
  forwardedBody : Bytes
  arith : I64Arith

namespace RetryConfig

variable (cfg : RetryConfig)

def forwardedValue : Option Json := cfg.fromSlice cfg.forwardedBody

def canRetry : Bool :=
  cfg.forwardedValue.isSome && cfg.policy.enabled && decide (cfg.policy.maxRetries > 0)

def classify (frame : Bytes) : FrameClassification := classifyFrame cfg.fromSlice frame

end RetryConfig

structure StreamMetrics where
  tokensGenerated : Int
  backendRetries : Nat
  backendRetryExhausted : Nat
  prematureStopDetected : Nat
  prematureStopRetries : Nat
  prematureStopExhausted : Nat
  deriving DecidableEq

/-- How the read loop of an attempt ended. -/
inductive ReadOutcome where
  | eof
  | deadline
  | stall
  deriving DecidableEq

inductive Ending where
  /-- The body is closed, with an error item unless the stream was accepted. -/
  | closed
  /-- The client went away. -/
  | disconnected
  | panicked
  deriving DecidableEq

inductive TaskPc where
  /-- At the head of the read loop. -/
  | reading
  /-- In the loop over the events of one chunk. -/
  | frames (rest : List Bytes)
  /-- A degenerate turn: the notice is to be sent, then the request. -/
  | notice (body : Json)
  | retry (body : Json)
  | awaitRetry
  /-- A re-forward is under way, because of an error frame or of the end of a stream. -/
  | awaitReforward (frame : Option Bytes)
  /-- The re-forward failed: its error frame is still to be passed on. -/
  | errorFrame (frame : Bytes)
  | flush (outcome : ReadOutcome)
  | settle (outcome : ReadOutcome)
  /-- The retry loop has been left. -/
  | closing
  | finished (ending : Ending)

structure RetryTask where
  attempt : Nat
  transientAttempt : Nat
  parser : SseFrameParser
  sawContent : Bool
  sawToolCalls : Bool
  accepted : Bool
  streamOk : Bool
  lifecycleGuard : LifecycleGuard
  metrics : StreamMetrics
  pc : TaskPc

/-- The next piece of the body, or its end. -/
inductive ReadItem where
  | chunk (bytes : Bytes)
  | failed (error : NetworkError)
  | eof

inductive TaskAction where
  /-- The stall flag is up. -/
  | stalled
  /-- The flag is down and the read returns; `late` says that the deadline has passed. -/
  | read (item : ReadItem) (late : Bool)
  /-- A step that may send to the client, with whether the client is still there. -/
  | step (connected : Bool)
  /-- A re-send returns. -/
  | respond (outcome : SendOutcome)

/-- What leaves the task: items of the client's body, and requests to the backend. -/
inductive TaskEvent where
  | frame (bytes : Bytes)
  | leftover (bytes : Bytes)
  | notice (attempt : Nat)
  | abort
  | retried (body : Json)
  | reforwarded (delay : Duration)

namespace RetryTask

def start (guard : LifecycleGuard) : RetryTask :=
  { attempt := 0, transientAttempt := 0, parser := .new, sawContent := false, sawToolCalls := false,
    accepted := false, streamOk := false, lifecycleGuard := guard, metrics := ⟨0, 0, 0, 0, 0, 0⟩,
    pc := .reading }

variable (cfg : RetryConfig) (s : RetryTask)

/-- A fresh stream: parser and flags start over. -/
def restart : RetryTask :=
  { s with
    parser := .new, sawContent := false, sawToolCalls := false, accepted := false, pc := .reading }

def sawAnything : Bool := s.sawContent || s.sawToolCalls

def mayReforward : Bool :=
  !s.sawAnything && decide (cfg.transientPolicy.maxAttempts > 0) &&
    decide (s.transientAttempt < cfg.transientPolicy.maxAttempts)

/-- Count the attempt, sleep, and send the unmodified body again. -/
def reforward (frame : Option Bytes) : RetryTask × Option TaskEvent :=
  ({ s with
      metrics := { s.metrics with backendRetries := s.metrics.backendRetries + 1 }
      transientAttempt := s.transientAttempt + 1
      pc := .awaitReforward frame },
    some (.reforwarded (transientBackoff (s.transientAttempt + 1) cfg.transientPolicy)))

/-- The error frame of a failed re-forward is still passed on. -/
def afterFailedReforward : Option Bytes → TaskPc
  | some frame => .errorFrame frame
  | none => .closing

def countUsage (frame : Bytes) (hasUsage : Bool) : RetryTask :=
  let tokens := completionTokensFromFrame cfg.fromSlice frame
  if hasUsage = true ∧ tokens > 0 then
    { s with
      metrics := { s.metrics with tokensGenerated := s.metrics.tokensGenerated + tokens }
      lifecycleGuard := s.lifecycleGuard.addDeliveredTokens cfg.arith tokens }
  else s

/-- Send an item; a client that is gone ends the task. -/
def sendThen (connected : Bool) (event : TaskEvent) (pc : TaskPc) : RetryTask × Option TaskEvent :=
  if connected then ({ s with pc }, some event) else ({ s with pc := .finished .disconnected }, none)

def countAndForwardFrame (frame : Bytes) (hasUsage connected : Bool) (rest : List Bytes) :
    RetryTask × Option TaskEvent :=
  (s.countUsage cfg frame hasUsage).sendThen connected (.frame frame) (.frames rest)

/-- Content and tool calls are noted before anything is decided. -/
def note (cls : FrameClassification) : RetryTask :=
  { s with
    sawContent := s.sawContent || cls.hasContent
    sawToolCalls := s.sawToolCalls || cls.hasToolCalls }

/-- A finish reason of a turn in which nothing was said. -/
def degenerate (finishReason : String) : Bool :=
  (finishReason == "stop" || finishReason == "length") && !s.sawAnything

def premature (finishReason : String) : Bool :=
  s.degenerate finishReason && decide (s.attempt < cfg.policy.maxRetries) && cfg.canRetry

def detectPrematureStop : RetryTask :=
  { s with
    metrics := { s.metrics with
      prematureStopDetected := s.metrics.prematureStopDetected + 1
      prematureStopRetries := s.metrics.prematureStopRetries + 1 }
    attempt := s.attempt + 1 }

/-- The body of the retry; an `unwrap` or the assignment in it can panic. -/
def retryBody : Option Json := do
  let value ← cfg.forwardedValue
  bumpTemperature value (s.attempt + 1) cfg.policy

/-- A retry that cannot be written or is not answered with success. -/
def exhaustRetry : RetryTask :=
  { s with
    metrics := { s.metrics with
      prematureStopExhausted := s.metrics.prematureStopExhausted + 1 }
    pc := .closing }

def retryPrematureStop : RetryTask :=
  match s.retryBody cfg with
  | none => { s.detectPrematureStop with pc := .finished .panicked }
  | some body => { s.detectPrematureStop with pc := .notice body }

def accept (finishReason : String) : RetryTask :=
  let metrics :=
    if s.degenerate finishReason && decide (s.attempt ≥ cfg.policy.maxRetries) then
      { s.metrics with prematureStopExhausted := s.metrics.prematureStopExhausted + 1 }
    else s.metrics
  { s with accepted := true, metrics }

/-- One event of the stream before a terminal one has been accepted. -/
def handleFrame (frame : Bytes) (rest : List Bytes) (connected : Bool) :
    RetryTask × Option TaskEvent :=
  let cls := cfg.classify frame
  let s := s.note cls
  if cls.isError && s.mayReforward cfg then s.reforward cfg (some frame)
  else
    match cls.finishReason with
    | some finishReason =>
        if s.premature cfg finishReason then (s.retryPrematureStop cfg, none)
        else (s.accept cfg finishReason).countAndForwardFrame cfg frame cls.hasUsage connected rest
    | none =>
        -- A marker or a usage frame ahead of the terminal frame goes no further.
        if cls.isDone || cls.hasUsage then ({ s with pc := .frames rest }, none)
        else s.sendThen connected (.frame frame) (.frames rest)

/-- The end of an attempt, once its leftover has been flushed. -/
def settle : ReadOutcome → RetryTask × Option TaskEvent
  | outcome =>
      if s.accepted then
        ({ s with
            lifecycleGuard := s.lifecycleGuard.markCompleted, streamOk := true, pc := .closing }, none)
      else
        match outcome with
        | .deadline | .stall => ({ s with pc := .closing }, none)
        | .eof =>
            if s.sawAnything then ({ s with pc := .closing }, none)
            else if s.mayReforward cfg then s.reforward cfg none
            else
              let exhausted := if cfg.transientPolicy.maxAttempts > 0 then 1 else 0
              ({ s with
                  metrics := { s.metrics with
                    backendRetryExhausted := s.metrics.backendRetryExhausted + exhausted }
                  pc := .closing },
                none)

end RetryTask

open TinyLlb.RetryTask in
def nextTask (cfg : RetryConfig) (s : RetryTask) :
    TaskAction → Option (RetryTask × Option TaskEvent)
  | .stalled =>
      match s.pc with
      | .reading => some ({ s with pc := .flush .stall }, none)
      | _ => none
  | .read item late =>
      match s.pc with
      | .reading =>
          match item with
          | .chunk bytes =>
              if cfg.requestTimeout.isSome && late then some ({ s with pc := .flush .deadline }, none)
              else
                some ({ s with
                  parser := (s.parser.feed bytes).2, pc := .frames (s.parser.feed bytes).1 }, none)
          | .failed _ | .eof => some ({ s with pc := .flush .eof }, none)
      | _ => none
  | .step connected =>
      match s.pc with
      | .frames [] => some ({ s with pc := .reading }, none)
      | .frames (frame :: rest) =>
          if s.accepted then
            some (s.countAndForwardFrame cfg frame (cfg.classify frame).hasUsage connected rest)
          else some (s.handleFrame cfg frame rest connected)
      | .notice body => some (s.sendThen connected (.notice s.attempt) (.retry body))
      | .retry body =>
          match cfg.toVec body with
          | some _ => some ({ s with pc := .awaitRetry }, some (.retried body))
          | none => some (s.exhaustRetry, none)
      | .errorFrame frame => some (s.sendThen connected (.frame frame) .closing)
      | .flush outcome =>
          if s.parser.buffer = [] then some ({ s with pc := .settle outcome }, none)
          else some (s.sendThen connected (.leftover s.parser.buffer) (.settle outcome))
      | .settle outcome => some (s.settle cfg outcome)
      | .closing =>
          some ({ s with pc := .finished .closed },
            if s.streamOk || !connected then none else some .abort)
      | _ => none
  | .respond outcome =>
      match s.pc with
      | .awaitRetry =>
          if outcome.isSuccess then some (s.restart, none)
          else
            some (s.exhaustRetry, none)
      | .awaitReforward frame =>
          if outcome.isSuccess then some (s.restart, none)
          else
            some ({ s with
              metrics := { s.metrics with
                backendRetryExhausted := s.metrics.backendRetryExhausted + 1 }
              pc := afterFailedReforward frame }, none)
      | _ => none

/-- The task of one request, with the guard it is given. -/
def retryStream (cfg : RetryConfig) (guard : LifecycleGuard) :
    Machine RetryTask TaskAction TaskEvent :=
  { start := RetryTask.start guard, next := nextTask cfg }

def sampleStop : String :=
  "\x7b\"choices\":[\x7b\"delta\":\x7b\x7d,\"finish_reason\":\"stop\"\x7d]\x7d"

def sampleContent : String := "\x7b\"choices\":[\x7b\"delta\":\x7b\"content\":\"hi\"\x7d\x7d]\x7d"

def sampleUsage : String := "\x7b\"usage\":\x7b\"completion_tokens\":5\x7d\x7d"

def sampleError : String := "\x7b\"error\":\x7b\"message\":\"bad request\"\x7d\x7d"

def sampleTable : List (String × Json) :=
  [("\x7b\x7d", .object []),
    (sampleStop, .object [("choices", .array [.object
      [("delta", .object []), ("finish_reason", .string "stop")]])]),
    (sampleContent, .object [("choices", .array [.object
      [("delta", .object [("content", .string "hi")])]])]),
    (sampleUsage, .object [("usage", .object [("completion_tokens", .number (.posInt 5))])]),
    (sampleError, .object [("error", .object [("message", .string "bad request")])])]

def sampleReader (bytes : Bytes) : Option Json :=
  (sampleTable.find? fun entry => ascii entry.1 == bytes).map Prod.snd

/-- A text as one event. -/
def sampleEvent (text : String) : Bytes := ascii ("data: " ++ text ++ "\n\n")

/-- The default budgets, with the retry policy on. -/
def RetryConfig.sample : RetryConfig :=
  { policy := { RetryPolicy.default with enabled := true }
    transientPolicy := .default
    requestTimeout := none
    fromSlice := sampleReader
    toVec := fun _ => some (ascii "\x7b\x7d")
    forwardedBody := ascii "\x7b\x7d"
    arith := .wrapping }

def retrySample : Machine RetryTask TaskAction TaskEvent := retryStream .sample (.new ⟨"f"⟩ 100)

end TinyLlb
