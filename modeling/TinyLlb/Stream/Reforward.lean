import TinyLlb.Config
import TinyLlb.Stream.Frames

/-! # Re-forwarding before the stream

A request that fails before any of its response has been passed on is sent again
with the same body, if the failure is one that clears by itself. `forward` is the
handler from the first send to the response it dispatches; `outcomes` gives what
each send comes back with, the first one at 0. Response headers, the error
counters and log lines are left out.
-/

namespace TinyLlb

inductive IoErrorKind where
  | connectionReset
  | connectionAborted
  | connectionRefused
  | brokenPipe
  | unexpectedEof
  | timedOut
  | other
  deriving DecidableEq

def IoErrorKind.connectionDied : IoErrorKind → Bool
  | connectionReset | connectionAborted | connectionRefused | brokenPipe | unexpectedEof => true
  | timedOut | other => false

/-- An error of the HTTP client, with its chain of sources; a source that is not an
    I/O error has no kind. -/
structure NetworkError where
  isConnect : Bool
  sources : List (Option IoErrorKind)
  deriving DecidableEq

def isTransientNetworkError (e : NetworkError) : Bool :=
  e.isConnect || e.sources.any fun source => source.any IoErrorKind.connectionDied

inductive ProxyError where
  | network (error : NetworkError)
  | timeout
  deriving DecidableEq

/-- What a send comes back with. The body is what collecting it gives. -/
inductive SendOutcome where
  | response (status : Nat) (body : Except NetworkError Bytes)
  | network (error : NetworkError)
  | timeout

def isSuccessStatus (status : Nat) : Bool := decide (200 ≤ status ∧ status < 300)

def isErrorStatus (status : Nat) : Bool := decide (400 ≤ status ∧ status < 600)

namespace SendOutcome

def isSuccess : SendOutcome → Bool
  | response status _ => isSuccessStatus status
  | _ => false

/-- A failure that is expected to clear: a llama.cpp context error below the slot
    capacity, or a connection that could not be made or died. -/
def isTransient (fromSlice : Bytes → Option Json) : SendOutcome → Bool
  | response status (.ok body) =>
      !isSuccessStatus status && classifyLlamacppError fromSlice body == .transient
  | response _ (.error _) => false
  | network error => isTransientNetworkError error
  | timeout => false

end SendOutcome

/-- The delay after `n` doublings, cut off at the maximum. -/
def backoffAfter (policy : TransientRetry) (delay : Duration) : Nat → Duration
  | 0 => delay
  | n + 1 =>
      if delay * 2 ≥ policy.backoffMax then policy.backoffMax else backoffAfter policy (delay * 2) n

/-- The delay before a re-forward, counted from 1. -/
def transientBackoff (attempt : Nat) (policy : TransientRetry) : Duration :=
  backoffAfter policy policy.backoffStart (attempt - 1)

inductive TransientRetryOutcome where
  /-- A successful response, to be dispatched. -/
  | success (status : Nat)
  /-- The final error response, returned verbatim. -/
  | finalResponse (status : Nat) (body : Bytes)
  | failed (error : ProxyError)

/-- What a loop of re-forwards did and how it ended. -/
structure TransientRetryRun where
  delays : List Duration
  exhausted : Bool
  outcome : TransientRetryOutcome

namespace TransientRetryRun

/-- Every re-forward sleeps first. -/
def sends (run : TransientRetryRun) : Nat := run.delays.length

end TransientRetryRun

section

variable (fromSlice : Bytes → Option Json) (policy : TransientRetry) (outcomes : Nat → SendOutcome)

/-- The loop of `transient_retry`, after `attempt` re-forwards. -/
def transientRetryFrom (attempt : Nat) (delays : List Duration) : TransientRetryRun :=
  let attempt' := attempt + 1
  let delays := delays ++ [transientBackoff attempt' policy]
  match outcomes attempt' with
  | .response status body =>
      if isSuccessStatus status then ⟨delays, false, .success status⟩
      else
        match body with
        | .error e => ⟨delays, false, .failed (.network e)⟩
        | .ok bytes =>
            if classifyLlamacppError fromSlice bytes = .transient then
              if attempt' < policy.maxAttempts then transientRetryFrom attempt' delays
              else ⟨delays, true, .finalResponse status bytes⟩
            else ⟨delays, false, .finalResponse status bytes⟩
  | .timeout => ⟨delays, false, .failed .timeout⟩
  | .network e =>
      if isTransientNetworkError e then
        if attempt' < policy.maxAttempts then transientRetryFrom attempt' delays
        else ⟨delays, true, .failed (.network e)⟩
      else ⟨delays, false, .failed (.network e)⟩
termination_by policy.maxAttempts - attempt

def transientRetry : TransientRetryRun := transientRetryFrom fromSlice policy outcomes 0 []

inductive ForwardOutcome where
  /-- The response that is handed to the streaming or non-streaming path. -/
  | dispatched (status : Nat)
  | errorResponse (status : Nat) (body : Bytes)
  | failed (error : ProxyError)

/-- The outcome of the request once its re-forwards are over. -/
def TransientRetryOutcome.toForward : TransientRetryOutcome → ForwardOutcome
  | success status => .dispatched status
  | finalResponse status body => .errorResponse status body
  | failed error => .failed error

structure ForwardRun where
  /-- Re-forwards after the first send. -/
  sends : Nat
  exhausted : Bool
  outcome : ForwardOutcome

/-- The handler from its first send on. -/
def forward : ForwardRun :=
  let reforwarded : ForwardRun :=
    let run := transientRetry fromSlice policy outcomes
    ⟨run.sends, run.exhausted, run.outcome.toForward⟩
  match outcomes 0 with
  | .network e =>
      if isTransientNetworkError e ∧ policy.maxAttempts > 0 then reforwarded
      else ⟨0, false, .failed (.network e)⟩
  | .timeout => ⟨0, false, .failed .timeout⟩
  | .response status body =>
      if isErrorStatus status then
        match body with
        | .error e => ⟨0, false, .failed (.network e)⟩
        | .ok bytes =>
            if classifyLlamacppError fromSlice bytes = .transient ∧ policy.maxAttempts > 0 then
              reforwarded
            else ⟨0, false, .errorResponse status bytes⟩
      else ⟨0, false, .dispatched status⟩

end

end TinyLlb
