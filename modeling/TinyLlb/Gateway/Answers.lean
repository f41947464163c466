import TinyLlb.Gateway.ContentLength
import TinyLlb.Gateway.FrontDoor

/-! # What a request is answered and charged

`proxy_handler` as a whole: the front door, the admission, the first attempt with its
re-forwards, and the response, with the guard that is dropped at the end and the counters
that moved on the way. A stream takes the guard with it.
-/

namespace TinyLlb

/-- The send failed. -/
def Reply.isNetwork : Reply → Bool
  | network _ => true
  | response _ | timeout => false

namespace Proxy

/-- `ProxyError`, with the cases of the front door and the admission. -/
inductive ClientError where
  | network (error : NetworkError)
  | internal (message : String)
  | tooLarge
  /-- With the time to wait, in nanoseconds. -/
  | rejected (retryAfter : ℚ)
  | timeout

namespace ClientError

def ofFront : FrontError → ClientError
  | .tooLarge => .tooLarge
  | .internal message => .internal message

def ofForward : ProxyError → ClientError
  | .network error => .network error
  | .timeout => .timeout

/-- A status with a text. -/
def plain (status : Nat) (text : Bytes) : ClientResponse :=
  ⟨status, [(ascii "content-type", ascii "text/plain; charset=utf-8")], text⟩

/-- `as_secs_f64().ceil() as u64`. -/
def retrySecs (retryAfter : ℚ) : Nat :=
  min (retryAfter / 1000000000).ceil.toNat 18446744073709551615

def intoResponse : ClientError → ClientResponse
  | .network _ => plain 502 (ascii "Bad Gateway")
  | .internal message => plain 500 message.toUTF8.toList
  | .tooLarge => plain 413 (ascii "Request body too large")
  | .rejected retryAfter =>
      { status := 429
        headers := [(ascii "retry-after", ascii (toString (retrySecs retryAfter))),
          (ascii "content-type", ascii "application/json")]
        body := ascii "\x7b\"error\":\"queue full\"\x7d" }
  | .timeout => plain 408 (ascii "Request timed out")

end ClientError

def isServerError (status : Nat) : Bool := decide (500 ≤ status ∧ status < 600)

/-- What the first attempt and its re-forwards leave behind. -/
structure Forwarded where
  requests : List BackendRequest
  dispatch : Dispatch
  /-- The guard, unless it goes on with the response. -/
  dropped : Option LifecycleGuard
  metrics : StreamMetrics
  errorsTotal : Nat

/-- What the handler leaves behind. -/
structure Handled where
  requests : List BackendRequest
  result : HandlerResult
  /-- The guard, unless a stream has taken it. -/
  dropped : Option LifecycleGuard
  metrics : StreamMetrics
  errorsTotal : Nat

namespace TransientRetryOutcome

def dropped : TransientRetryOutcome → Option LifecycleGuard
  | .success _ _ => none
  | .finalResponse _ guard | .failed _ guard => some guard

/-- What `build_error_response` counts. -/
def errors : TransientRetryOutcome → Nat
  | .finalResponse response _ => (isServerError response.status).toNat
  | .success _ _ | .failed _ _ => 0

end TransientRetryOutcome

section

variable (state : AppState) (request : ClientRequest) (idSlot : Option Nat) (requestId : Bytes)
  (lifecycle : LifecycleGuard) (metrics : StreamMetrics)

/-- After the re-forwards, with this many errors before them. -/
def reforwarded (replies : Nat → Reply) (errors : Nat) : Forwarded :=
  let run := transientRetry (reforwarding state request idSlot requestId lifecycle) replies metrics
  { requests := forwardedRequest state.serde request idSlot :: run.sends.map Prod.snd
    dispatch := run.dispatch, dropped := run.outcome.dropped, metrics := run.metrics
    errorsTotal := errors + run.outcome.errors }

/-- From the first attempt to the response that is dispatched. -/
def forward (replies : Nat → Reply) : Forwarded :=
  let first := [forwardedRequest state.serde request idSlot]
  match replies 0 with
  | .network e =>
      if isTransientNetworkError e = true ∧ state.transientRetry.maxAttempts > 0 then
        reforwarded state request idSlot requestId lifecycle metrics replies 1
      else ⟨first, .answered (.failed (.network e)), some lifecycle, metrics, 1⟩
  | .timeout => ⟨first, .answered (.failed .timeout), some lifecycle, metrics, 0⟩
  | .response response =>
      if isErrorStatus response.status = true then
        match response.body with
        | .error e => ⟨first, .answered (.failed (.network e)), some lifecycle, metrics, 0⟩
        | .ok bytes =>
            if classifyLlamacppError state.serde.fromSlice bytes = .transient ∧
                state.transientRetry.maxAttempts > 0 then
              reforwarded state request idSlot requestId lifecycle metrics replies 0
            else
              { requests := first
                dispatch := .answered (.response
                  (buildErrorResponse requestId response.status response.headers bytes))
                dropped := some lifecycle.markCompleted, metrics
                errorsTotal := (isServerError response.status).toNat }
      else ⟨first, .dispatched response lifecycle metrics, none, metrics, 0⟩

/-- The handler on the response that is dispatched, after these requests and errors. -/
def finish (world : World) (requests : List BackendRequest) (errorsTotal : Nat)
    (response : BackendResponse) : Handled :=
  if isSse response.headers = true ∨ bodyWantsStreaming state.serde request.body = true then
    { requests := requests ++ streamRequests state request idSlot lifecycle world.stream
      result := .streamed response.status
        ((response.headers.filterResponseHeadersStreaming).insert (ascii "x-request-id") requestId)
      dropped := none, metrics, errorsTotal }
  else if state.requestTimeout.isSome = true ∧ world.late = true then
    ⟨requests, .failed .timeout, some lifecycle, metrics, errorsTotal⟩
  else
    match response.body with
    | .error e => ⟨requests, .failed (.network e), some lifecycle, metrics, errorsTotal⟩
    | .ok body =>
        let call := exchange state.retryPolicy state.serde state.arith request idSlot requestId
        match nonStreaming call world.resends lifecycle metrics response.status response.headers
            body with
        | some run =>
            ⟨requests ++ run.sends, .response run.response, some run.lifecycle, run.metrics, errorsTotal⟩
        -- The panic comes after the first retry has been counted.
        | none => ⟨requests, .panicked, some lifecycle, countDetected metrics, errorsTotal⟩

def handle (world : World) : Handled :=
  let forward := forward state request idSlot requestId lifecycle metrics world.replies
  match forward.dispatch with
  | .answered result =>
      ⟨forward.requests, result, forward.dropped, forward.metrics, forward.errorsTotal⟩
  | .dispatched response lifecycle metrics =>
      finish state request idSlot requestId lifecycle metrics world forward.requests
        forward.errorsTotal response

end

/-- How the first attempt and its re-forwards end: with a response for the handler to go
    on with, an error response of the backend, or nothing. -/
inductive ForwardEnds (requestId : Bytes) (lifecycle : LifecycleGuard) :
    Dispatch → Option LifecycleGuard → Nat → Prop where
  | dispatched (response : BackendResponse) (metrics : StreamMetrics)
      (fine : isErrorStatus response.status = false) :
      ForwardEnds requestId lifecycle (.dispatched response lifecycle metrics) none 0
  | answered (response : ClientResponse)
      (echoed : response.headers.values (ascii "x-request-id") = [requestId]) :
      ForwardEnds requestId lifecycle (.answered (.response response)) (some lifecycle.markCompleted)
        (isServerError response.status).toNat
  | failed (error : ProxyError) :
      ForwardEnds requestId lifecycle (.answered (.failed error)) (some lifecycle) 0

theorem buildErrorResponse_echoes (requestId : Bytes) (status : Nat) (headers : HeaderMap)
    (body : Bytes) :
    (buildErrorResponse requestId status headers body).headers.values (ascii "x-request-id") =
      [requestId] :=
  HeaderMap.values_insert_self _ _ _

theorem ending_ends (call : Reforwarding) (reply : Reply) (sends : List (Duration × BackendRequest))
    (metrics : StreamMetrics) :
    ForwardEnds call.requestId call.lifecycle
      (TransientRetryRun.dispatch ⟨sends, metrics, ending call reply⟩) (ending call reply).dropped
      (ending call reply).errors := by
  cases reply with
  | network e => exact .failed (.network e)
  | timeout => exact .failed .timeout
  | response response =>
      cases success : isSuccessStatus response.status with
      | true =>
          have ended : ending call (.response response) = .success response call.lifecycle := by
            simp [ending, success]
          rw [ended]
          exact .dispatched response metrics (isErrorStatus_of_success success)
      | false =>
          cases body : response.body with
          | error e =>
              have ended : ending call (.response response) = .failed (.network e) call.lifecycle := by
                simp [ending, success, body]
              rw [ended]
              exact .failed (.network e)
          | ok bytes =>
              have ended : ending call (.response response) = .finalResponse
                  (buildErrorResponse call.requestId response.status response.headers bytes)
                  call.lifecycle.markCompleted := by
                simp [ending, success, body]
              rw [ended]
              exact .answered _ (buildErrorResponse_echoes _ _ _ _)

section

variable (state : AppState) (request : ClientRequest) (idSlot : Option Nat) (requestId : Bytes)
  (lifecycle : LifecycleGuard) (metrics : StreamMetrics) (replies : Nat → Reply)

theorem reforwarded_ends (budget : 1 ≤ state.transientRetry.maxAttempts) (errors : Nat) :
    let after := reforwarded state request idSlot requestId lifecycle metrics replies errors
    ∃ counted, ForwardEnds requestId lifecycle after.dispatch after.dropped counted ∧
      after.errorsTotal = errors + counted := by
  intro after
  refine ⟨_, ?_, rfl⟩
  simp only [after, reforwarded]
  rw [transientRetry_run _ _ _ budget]
  exact ending_ends (reforwarding state request idSlot requestId lifecycle) _ _ _

theorem forward_ends :
    let after := forward state request idSlot requestId lifecycle metrics replies
    ∃ counted, ForwardEnds requestId lifecycle after.dispatch after.dropped counted ∧
      after.errorsTotal = (replies 0).isNetwork.toNat + counted := by
  unfold forward
  cases reply : replies 0 with
  | network e =>
      simp only [Reply.isNetwork, Bool.toNat_true]
      split
      · rename_i again
        exact reforwarded_ends state request idSlot requestId lifecycle metrics replies again.2 1
      · exact ⟨0, .failed (.network e), rfl⟩
  | timeout => exact ⟨0, .failed .timeout, rfl⟩
  | response response =>
      simp only [Reply.isNetwork, Bool.toNat_false]
      cases error : isErrorStatus response.status with
      | false => exact ⟨0, .dispatched response metrics error, rfl⟩
      | true =>
          cases body : response.body with
          | error e => exact ⟨0, .failed (.network e), rfl⟩
          | ok bytes =>
              simp only [if_true]
              split
              · rename_i again
                exact reforwarded_ends state request idSlot requestId lifecycle metrics replies
                  again.2 0
              · exact ⟨_, .answered _ (buildErrorResponse_echoes _ _ _ _), (Nat.zero_add _).symm⟩

theorem forward_eq :
    let after := forward state request idSlot requestId lifecycle metrics replies
    (after.requests, after.dispatch) =
      forwardFirst state request idSlot requestId lifecycle metrics replies := by
  unfold forward forwardFirst
  cases replies 0 with
  | timeout => rfl
  | network e =>
      simp only
      split <;> rfl
  | response response =>
      simp only
      split
      · cases response.body with
        | error e => rfl
        | ok bytes =>
            simp only
            split <;> rfl
      · rfl

theorem forward_requests :
    let first := forwardedRequest state.serde request idSlot
    ∃ count, count ≤ state.transientRetry.maxAttempts ∧
      (forward state request idSlot requestId lifecycle metrics replies).requests =
        first :: List.replicate count (retryRequest first.headers first.body) := by
  intro first
  have requests := congrArg Prod.fst (forward_eq state request idSlot requestId lifecycle metrics replies)
  simp only at requests
  rw [requests]
  rcases forwardFirst_cases state request idSlot requestId lifecycle metrics replies with
    ⟨-, budget, forward⟩ | ⟨-, ⟨error, -, forward⟩ | ⟨other, bytes, -, -, -, forward⟩ |
      ⟨other, -, -, forward⟩⟩
  · let call := reforwarding state request idSlot requestId lifecycle
    have bound := Retry.stop_le (again call replies) (state.transientRetry.maxAttempts - 1) 1
    change reforwards call replies ≤ _ at bound
    refine ⟨reforwards call replies, by omega, ?_⟩
    rw [forward, transientRetry_run _ _ _ budget]
    simp only [List.cons.injEq, sendsUpTo, List.map_map]
    refine ⟨rfl, List.eq_replicate_iff.mpr ⟨by simp [call], ?_⟩⟩
    intro sent member
    obtain ⟨i, -, rfl⟩ := List.mem_map.mp member
    rfl
  · exact ⟨0, Nat.zero_le _, by rw [forward]; rfl⟩
  · exact ⟨0, Nat.zero_le _, by rw [forward]; rfl⟩
  · exact ⟨0, Nat.zero_le _, by rw [forward]; rfl⟩

end

section

variable {call : Exchange} {replies : Nat → Reply}

/-- One round: no re-send, or one after which the loop is over or goes on. -/
theorem prematureRetryFrom_cases {forwarded : Json} {loop : PrematureRetry} {attempts : Nat}
    {body : Bytes} {sends : List BackendRequest} {metrics : StreamMetrics}
    (looped : prematureRetryFrom call replies forwarded attempts body sends metrics = some loop) :
    loop.sends = sends ∨ attempts < call.policy.maxRetries ∧ ∃ sent, loop.sends = sends ++ [sent] ∨
      ∃ bytes, prematureRetryFrom call replies forwarded (attempts + 1) bytes (sends ++ [sent])
        (countDetected metrics) = some loop := by
  rw [prematureRetryFrom] at looped
  split at looped
  · rename_i goes
    simp only at looped
    split at looped
    · cases looped
    · split at looped
      · obtain rfl := Option.some.inj looped
        exact .inl rfl
      · rename_i retryBytes _
        refine .inr ⟨goes.2, retryRequest call.headers retryBytes, ?_⟩
        split at looped
        · split at looped
          · split at looped
            · exact .inr ⟨_, looped⟩
            · obtain rfl := Option.some.inj looped
              exact .inl rfl
          · obtain rfl := Option.some.inj looped
            exact .inl rfl
        · obtain rfl := Option.some.inj looped
          exact .inl rfl
        · obtain rfl := Option.some.inj looped
          exact .inl rfl
  · obtain rfl := Option.some.inj looped
    exact .inl rfl

theorem prematureRetryFrom_sends {forwarded : Json} {loop : PrematureRetry} (left : Nat)
    {attempts : Nat} {body : Bytes} {sends : List BackendRequest} {metrics : StreamMetrics}
    (budget : call.policy.maxRetries ≤ attempts + left)
    (looped : prematureRetryFrom call replies forwarded attempts body sends metrics = some loop) :
    ∃ resends, loop.sends = sends ++ resends ∧ resends.length ≤ left := by
  induction left generalizing attempts body sends metrics with
  | zero =>
      rcases prematureRetryFrom_cases looped with idle | ⟨more, -⟩
      · exact ⟨[], by simp [idle], Nat.le_refl _⟩
      · omega
  | succ left ih =>
      rcases prematureRetryFrom_cases looped with idle | ⟨-, sent, last | ⟨bytes, on⟩⟩
      · exact ⟨[], by simp [idle], Nat.zero_le _⟩
      · exact ⟨[sent], last, Nat.succ_le_succ (Nat.zero_le _)⟩
      · obtain ⟨resends, list, count⟩ := ih (by omega) on
        exact ⟨sent :: resends, by simp [list], Nat.succ_le_succ count⟩

theorem prematureRetry_sends {first : Bytes} {metrics : StreamMetrics} {loop : PrematureRetry}
    (looped : prematureRetry call replies first metrics = some loop) :
    loop.sends.length ≤ call.policy.maxRetries := by
  unfold prematureRetry at looped
  split at looped
  · split at looped
    · obtain ⟨run, ran, rfl⟩ := Option.map_eq_some_iff.mp looped
      obtain ⟨resends, list, count⟩ := prematureRetryFrom_sends call.policy.maxRetries
        (Nat.le_add_left _ 0) ran
      split <;> simpa [list] using count
    · obtain rfl := Option.some.inj looped
      exact Nat.zero_le _
  · obtain rfl := Option.some.inj looped
    exact Nat.zero_le _

variable {lifecycle : LifecycleGuard} {metrics : StreamMetrics} {status : Nat}
  {responseHeaders : HeaderMap} {first : Bytes} {run : NonStreamingRun}

/-- The tokens that a body is charged. -/
def bodyTokens (arith : I64Arith) (fromSlice : Bytes → Option Json) (body : Bytes) : Int :=
  arith.store (max 0 (extractCompletionTokens fromSlice body))

/-- What a response without a stream leaves behind. -/
structure NonStreamingEnds (call : Exchange) (lifecycle : LifecycleGuard) (status : Nat)
    (run : NonStreamingRun) : Prop where
  sends : run.sends.length ≤ call.policy.maxRetries
  status : run.response.status = status
  echoed : run.response.headers.values (ascii "x-request-id") = [call.requestId]
  guard : run.lifecycle = { lifecycle with
    completedNormally := true
    deliveredTokens := bodyTokens call.arith call.serde.fromSlice run.response.body }

theorem nonStreaming_ends (fresh : lifecycle.deliveredTokens = 0)
    (ran : nonStreaming call replies lifecycle metrics status responseHeaders first = some run) :
    NonStreamingEnds call lifecycle status run := by
  unfold nonStreaming at ran
  obtain ⟨loop, looped, rfl⟩ := Option.map_eq_some_iff.mp ran
  constructor
  · exact prematureRetry_sends looped
  · rfl
  · simp only
    rw [HeaderMap.values_insert_other (by decide), HeaderMap.values_insert_self]
  · unfold bodyTokens
    by_cases some_ : extractCompletionTokens call.serde.fromSlice loop.body > 0
    · simp [some_, max_eq_right some_.le, LifecycleGuard.addDeliveredTokens,
        LifecycleGuard.markCompleted, fresh]
    · have zero : call.arith.store 0 = 0 := call.arith.store_of_inI64 (by decide)
      simp [some_, max_eq_left (not_lt.mp some_), LifecycleGuard.markCompleted, zero, fresh]

end

/-- The backend's error response is passed on. -/
def HandlerResult.isServerError : HandlerResult → Bool
  | .response answer => Proxy.isServerError answer.status
  | .streamed _ _ | .failed _ | .panicked => false

/-- What the handler leaves behind for a request that has its guard. -/
structure HandleEnds (state : AppState) (request : ClientRequest) (idSlot : Option Nat)
    (requestId : Bytes) (lifecycle : LifecycleGuard) (world : World) (handled : Handled) : Prop where
  /-- The first attempt, its re-forwards, and what follows on the response. -/
  requests : let first := forwardedRequest state.serde request idSlot
    ∃ reforwards rest, reforwards ≤ state.transientRetry.maxAttempts ∧
      handled.requests = first ::
        (List.replicate reforwards (retryRequest first.headers first.body) ++ rest) ∧
      ((∀ status headers, handled.result ≠ .streamed status headers) →
        rest.length ≤ state.retryPolicy.maxRetries)
  echoed : ∀ response, handled.result = .response response →
    response.headers.values (ascii "x-request-id") = [requestId]
  streamed : ∀ status headers, handled.result = .streamed status headers →
    headers.values (ascii "x-request-id") = [requestId] ∧ handled.dropped = none
  restored : (∃ error, handled.result = .failed error) ∨ handled.result = .panicked →
    handled.dropped = some lifecycle
  charged : ∀ response, handled.result = .response response → ∃ tokens,
    handled.dropped = some { lifecycle with completedNormally := true, deliveredTokens := tokens } ∧
      ((∃ first, Dispatched state world.replies first) →
        tokens = bodyTokens state.arith state.serde.fromSlice response.body) ∧
      ((∀ first, ¬ Dispatched state world.replies first) → tokens = 0)
  errors : handled.errorsTotal =
    (world.replies 0).isNetwork.toNat + handled.result.isServerError.toNat

section

variable {state : AppState} {request : ClientRequest} {idSlot : Option Nat} {requestId : Bytes}
  {lifecycle : LifecycleGuard}

theorem finish_ends (fresh : lifecycle.deliveredTokens = 0) {world : World} {response : BackendResponse}
    (fine : isErrorStatus response.status = false)
    (dispatched : ∃ first, Dispatched state world.replies first) (metrics : StreamMetrics)
    {reforwards : Nat} (bound : reforwards ≤ state.transientRetry.maxAttempts) :
    let first := forwardedRequest state.serde request idSlot
    let requests := first :: List.replicate reforwards (retryRequest first.headers first.body)
    HandleEnds state request idSlot requestId lifecycle world
      (finish state request idSlot requestId lifecycle metrics world requests
        (world.replies 0).isNetwork.toNat response) := by
  intro first requests
  have more : ∀ rest, requests ++ rest = first ::
      (List.replicate reforwards (retryRequest first.headers first.body) ++ rest) := fun _ => rfl
  have none_ := more []
  rw [List.append_nil] at none_
  unfold finish
  split
  · refine ⟨⟨reforwards, _, bound, more _, fun plain => absurd rfl (plain _ _)⟩, by simp, ?_, by simp,
      by simp, rfl⟩
    rintro _ _ same
    obtain ⟨-, rfl⟩ := HandlerResult.streamed.inj same
    exact ⟨HeaderMap.values_insert_self _ _ _, rfl⟩
  · split
    · exact ⟨⟨reforwards, [], bound, none_, fun _ => Nat.zero_le _⟩, by simp, by simp, by simp, by simp,
        rfl⟩
    · cases response.body with
      | error e =>
          exact ⟨⟨reforwards, [], bound, none_, fun _ => Nat.zero_le _⟩, by simp, by simp, by simp,
            by simp, rfl⟩
      | ok body =>
          simp only
          split
          · rename_i run ran
            have ends := nonStreaming_ends fresh ran
            refine ⟨⟨reforwards, run.sends, bound, more _, fun _ => ends.sends⟩, ?_, by simp, by simp, ?_,
              ?_⟩
            · intro answer same
              obtain rfl := HandlerResult.response.inj same
              exact ends.echoed
            · intro answer same
              obtain rfl := HandlerResult.response.inj same
              exact ⟨_, congrArg some ends.guard, fun _ => rfl,
                fun undispatched => absurd dispatched (by simpa using undispatched)⟩
            · have status : isServerError run.response.status = false := by
                rw [ends.status]
                simp only [isErrorStatus, decide_eq_false_iff_not] at fine
                simp only [isServerError, decide_eq_false_iff_not]
                omega
              simp [HandlerResult.isServerError, status]
          · exact ⟨⟨reforwards, [], bound, none_, fun _ => Nat.zero_le _⟩, by simp, by simp, by simp,
              by simp, rfl⟩

theorem handle_ends (fresh : lifecycle.deliveredTokens = 0) (requestId : Bytes) (metrics : StreamMetrics)
    (world : World) :
    HandleEnds state request idSlot requestId lifecycle world
      (handle state request idSlot requestId lifecycle metrics world) := by
  obtain ⟨counted, ends, errors⟩ := forward_ends state request idSlot requestId lifecycle metrics
    world.replies
  obtain ⟨reforwards, bound, requests⟩ := forward_requests state request idSlot requestId lifecycle
    metrics world.replies
  have agrees := forward_eq state request idSlot requestId lifecycle metrics world.replies
  have dispatched : ∀ response, Dispatched state world.replies response ↔ ∃ guard counters,
      (forward state request idSlot requestId lifecycle metrics world.replies).dispatch =
        .dispatched response guard counters := by
    intro response
    rw [dispatched_iff state request idSlot requestId lifecycle metrics, ← agrees]
  unfold handle
  generalize forward state request idSlot requestId lifecycle metrics world.replies = after
    at ends errors requests dispatched
  obtain ⟨sent, dispatch, dropped, metrics, errorsTotal⟩ := after
  simp only at ends errors requests dispatched
  subst sent errorsTotal
  cases ends with
  | dispatched response counters fine =>
      exact finish_ends fresh fine ⟨response, (dispatched response).mpr ⟨_, _, rfl⟩⟩ counters bound
  | answered response echoed =>
      have undispatched : ∀ first, ¬ Dispatched state world.replies first := by
        intro first
        rw [dispatched]
        rintro ⟨_, _, same⟩
        cases same
      refine ⟨⟨reforwards, [], bound, by simp, fun _ => Nat.zero_le _⟩, ?_, by simp, by simp, ?_, rfl⟩
      · intro answer same
        obtain rfl := HandlerResult.response.inj same
        exact echoed
      · intro answer _
        exact ⟨0, by simp [LifecycleGuard.markCompleted, ← fresh],
          fun ⟨first, was⟩ => absurd was (undispatched first), fun _ => rfl⟩
  | failed error =>
      exact ⟨⟨reforwards, [], bound, by simp, fun _ => Nat.zero_le _⟩, by simp, by simp, by simp, by simp,
        rfl⟩

/-- Requests and result are those of the handler in `ContentLength`. -/
theorem handle_eq (state : AppState) (request : ClientRequest) (idSlot : Option Nat)
    (requestId : Bytes) (lifecycle : LifecycleGuard) (metrics : StreamMetrics) (world : World) :
    let handled := handle state request idSlot requestId lifecycle metrics world
    (⟨handled.requests, handled.result⟩ : HandlerRun) =
      proxyHandler state request idSlot requestId lifecycle metrics world := by
  have agrees := forward_eq state request idSlot requestId lifecycle metrics world.replies
  intro handled
  unfold handled handle proxyHandler
  rw [← agrees]
  generalize forward state request idSlot requestId lifecycle metrics world.replies = after
  simp only
  cases after.dispatch with
  | answered result => rfl
  | dispatched response guard counters =>
      simp only
      unfold finish respond
      split
      · rfl
      · split
        · rfl
        · cases response.body with
          | error e => rfl
          | ok body =>
              simp only
              generalize nonStreaming (exchange state.retryPolicy state.serde state.arith request
                idSlot requestId) world.resends guard counters response.status response.headers
                body = run
              cases run <;> rfl

end

end Proxy

/-- How `admit_with_turn_boundary` returns. -/
inductive AdmissionResult where
  | ticket
  | rejected (retryAfter : ℚ)

inductive Outcome where
  | response (response : ClientResponse)
  | streamed (status : Nat) (headers : HeaderMap)
  | failed (error : Proxy.ClientError)
  | panicked

namespace Outcome

def ofHandler : Proxy.HandlerResult → Outcome
  | .response answer => .response answer
  | .streamed status headers => .streamed status headers
  | .failed error => .failed (.ofForward error)
  | .panicked => .panicked

/-- The response that the client gets, unless it is a stream or none. -/
def client : Outcome → Option ClientResponse
  | response answer => some answer
  | failed error => some error.intoResponse
  | streamed _ _ | panicked => none

/-- A response of the backend is passed on. -/
def isResponse : Outcome → Bool
  | response _ => true
  | streamed _ _ | failed _ | panicked => false

/-- It is one of a server error. -/
def isServerError : Outcome → Bool
  | response answer => Proxy.isServerError answer.status
  | streamed _ _ | failed _ | panicked => false

end Outcome

/-- What a request comes to. -/
structure Answer where
  requests : List BackendRequest
  outcome : Outcome
  /-- The guard that was made for the request. -/
  opened : Option LifecycleGuard
  dropped : Option LifecycleGuard
  metrics : StreamMetrics
  errorsTotal : Nat
  rejections : Nat

/-- What `proxy_handler` has at hand. -/
structure ProxyEnv where
  state : Proxy.AppState
  join : Bytes → Except String Bytes
  setQuery : Bytes → Bytes → Bytes
  requestId : Bytes

namespace ProxyEnv

variable (env : ProxyEnv)

def door : DoorEnv := ⟨env.state.serde, env.join, env.setQuery⟩

/-- A request that is no inference request: one attempt, and its answer. -/
def metadata (first : BackendRequest) (metrics : StreamMetrics) (reply : Reply) : Answer :=
  let answer (outcome : Outcome) : Answer :=
    { requests := [first], outcome, opened := none, dropped := none, metrics, errorsTotal := 0
      rejections := 0 }
  match reply with
  | .network e => answer (.failed (.network e))
  | .timeout => answer (.failed .timeout)
  | .response response =>
      match response.body with
      | .error e => answer (.failed (.network e))
      | .ok bytes =>
          answer (.response
            { status := response.status
              headers := (response.headers.filterResponseHeaders).insert (ascii "x-request-id")
                env.requestId
              body := bytes })

/-- A request that has its ticket. -/
def admitted (h : Handover) (client : ClientRequest) (metrics : StreamMetrics)
    (world : Proxy.World) : Answer :=
  let lifecycle := LifecycleGuard.new h.flowId h.workUnit.asI64
  let handled := Proxy.handle env.state client (h.idSlot.map UInt32.toNat) env.requestId lifecycle
    metrics world
  { requests := handled.requests, outcome := .ofHandler handled.result, opened := some lifecycle
    dropped := handled.dropped, metrics := handled.metrics, errorsTotal := handled.errorsTotal
    rejections := 0 }

def turnedAway (error : Proxy.ClientError) (metrics : StreamMetrics) (rejections : Nat) : Answer :=
  { requests := [], outcome := .failed error, opened := none, dropped := none, metrics
    errorsTotal := 0, rejections }

def proxyHandler (door : FrontDoor) (incoming : Incoming) (admission : AdmissionResult)
    (metrics : StreamMetrics) (world : Proxy.World) : Answer :=
  match (door.receive env.door incoming).1, incoming.accept with
  | .error e, _ => turnedAway (.ofFront e) metrics 0
  | .ok h, .ok body =>
      if h.isInference then
        match admission with
        | .rejected retryAfter => turnedAway (.rejected retryAfter) metrics 1
        | .ticket => env.admitted h (incoming.client body) metrics world
      else env.metadata h.forwarded metrics (world.replies 0)
  -- Not reached: what is handed on has its body.
  | .ok _, .error e => turnedAway (.ofFront e) metrics 0

/-- The request gets to the backend: the front door hands it on, and the scheduler lets
    it in where it is asked. -/
def Reaches (door : FrontDoor) (incoming : Incoming) (admission : AdmissionResult) (h : Handover) :
    Prop :=
  (door.receive env.door incoming).1 = .ok h ∧ (h.isInference = true → admission = .ticket)

/-- What an exchange comes to, for the client, the backend, the scheduler and the
    counters. -/
structure Settles (door : FrontDoor) (incoming : Incoming) (admission : AdmissionResult)
    (metrics : StreamMetrics) (world : Proxy.World) (answer : Answer) : Prop where
  turnedDown : (∀ h, ¬ env.Reaches door incoming admission h) →
    answer.requests = [] ∧ ∃ error, answer.outcome = .failed error
  /-- One attempt, its re-forwards, and the re-sends. -/
  requests : ∀ h, env.Reaches door incoming admission h → ∃ reforwards rest,
    answer.requests = h.forwarded ::
      (List.replicate reforwards (retryRequest h.forwarded.headers h.forwarded.body) ++ rest) ∧
    reforwards ≤ env.state.transientRetry.maxAttempts ∧
    ((∀ status headers, answer.outcome ≠ .streamed status headers) →
      rest.length ≤ env.state.retryPolicy.maxRetries) ∧
    (h.isInference = false → reforwards = 0 ∧ rest = [])
  rejections : answer.rejections = 1 ↔ ∃ h retryAfter, (door.receive env.door incoming).1 = .ok h ∧
    h.isInference = true ∧ admission = .rejected retryAfter
  opened : ∀ guard, answer.opened = some guard ↔ ∃ h, env.Reaches door incoming admission h ∧
    h.isInference = true ∧ guard = .new h.flowId h.workUnit.asI64
  /-- Without a guard nothing is counted. -/
  uncounted : answer.opened = none →
    answer.dropped = none ∧ answer.metrics = metrics ∧ answer.errorsTotal = 0
  /-- A response of the backend has the request's id, and the gateway's own has none. -/
  echoed : ∀ response, answer.outcome.client = some response →
    response.headers.values (ascii "x-request-id") =
      if answer.outcome.isResponse = true then [env.requestId] else []
  /-- A stream goes on with the guard. -/
  streamed : ∀ status headers, answer.outcome = .streamed status headers →
    headers.values (ascii "x-request-id") = [env.requestId] ∧ answer.opened.isSome = true ∧
      answer.dropped = none
  /-- Without a response the whole cost is restored. -/
  restored : ∀ guard, answer.opened = some guard →
    (∃ error, answer.outcome = .failed error) ∨ answer.outcome = .panicked →
      answer.dropped = some guard ∧ guard.restoreCost env.state.arith = guard.estimatedCost
  /-- With a response the tokens of its body are charged, and with an error response the
      whole cost. -/
  charged : ∀ guard response, answer.opened = some guard → answer.outcome = .response response →
    ∃ tokens, answer.dropped = some { guard with
        completedNormally := true
        deliveredTokens := tokens } ∧
      ((∃ first, Proxy.Dispatched env.state world.replies first) →
        tokens = Proxy.bodyTokens env.state.arith env.state.serde.fromSlice response.body) ∧
      ((∀ first, ¬ Proxy.Dispatched env.state world.replies first) → tokens = 0)
  /-- A first attempt that was not answered, and a server error that is passed on. -/
  errors : ∀ guard, answer.opened = some guard → answer.errorsTotal =
    (world.replies 0).isNetwork.toNat + answer.outcome.isServerError.toNat

theorem intoResponse_values (error : Proxy.ClientError) :
    error.intoResponse.headers.values (ascii "x-request-id") = [] := by
  cases error <;> rfl

variable {env} {door : FrontDoor} {incoming : Incoming} {admission : AdmissionResult}

theorem settles_turnedAway (metrics : StreamMetrics) (world : Proxy.World) (error : Proxy.ClientError)
    {rejections : Nat} (turned : ∀ h, ¬ env.Reaches door incoming admission h)
    (counted : rejections = 1 ↔ ∃ h retryAfter, (door.receive env.door incoming).1 = .ok h ∧
      h.isInference = true ∧ admission = .rejected retryAfter) :
    env.Settles door incoming admission metrics world (turnedAway error metrics rejections) where
  turnedDown _ := ⟨rfl, error, rfl⟩
  requests h reaches := absurd reaches (turned h)
  rejections := counted
  opened guard := by
    simp only [turnedAway, reduceCtorEq, false_iff]
    rintro ⟨h, reaches, -⟩
    exact turned h reaches
  uncounted _ := ⟨rfl, rfl, rfl⟩
  echoed response client := by
    obtain rfl := Option.some.inj client
    exact intoResponse_values error
  streamed status headers same := by cases same
  restored guard opened := by cases opened
  charged guard response opened := by cases opened
  errors guard opened := by cases opened

theorem settles_direct {h : Handover} (received : (door.receive env.door incoming).1 = .ok h)
    (metadata : h.isInference = false) (metrics : StreamMetrics) (world : Proxy.World)
    {outcome : Outcome} (whole : ∀ status headers, outcome ≠ .streamed status headers)
    (echoed : ∀ response, outcome.client = some response →
      response.headers.values (ascii "x-request-id") =
        if outcome.isResponse = true then [env.requestId] else []) :
    env.Settles door incoming admission metrics world
      ⟨[h.forwarded], outcome, none, none, metrics, 0, 0⟩ := by
  have only : ∀ h', (door.receive env.door incoming).1 = .ok h' → h' = h :=
    fun h' received' => Except.ok.inj (received'.symm.trans received)
  have reaches : env.Reaches door incoming admission h :=
    ⟨received, fun inference => by cases metadata.symm.trans inference⟩
  refine ⟨fun turned => absurd reaches (turned h), ?_, ?_, ?_, fun _ => ⟨rfl, rfl, rfl⟩, echoed,
    fun status headers same => absurd same (whole status headers), by simp, by simp, by simp⟩
  · intro h' reaches'
    obtain rfl := only h' reaches'.1
    exact ⟨0, [], rfl, Nat.zero_le _, fun _ => Nat.zero_le _, fun _ => ⟨rfl, rfl⟩⟩
  · simp only [Nat.zero_ne_one, false_iff]
    rintro ⟨h', -, received', inference, -⟩
    obtain rfl := only h' received'
    cases metadata.symm.trans inference
  · intro guard
    simp only [reduceCtorEq, false_iff]
    rintro ⟨h', reaches', inference, -⟩
    obtain rfl := only h' reaches'.1
    cases metadata.symm.trans inference

theorem settles_metadata {h : Handover} (received : (door.receive env.door incoming).1 = .ok h)
    (metadata : h.isInference = false) (metrics : StreamMetrics) (world : Proxy.World) :
    env.Settles door incoming admission metrics world
      (env.metadata h.forwarded metrics (world.replies 0)) := by
  have failed : ∀ error, env.Settles door incoming admission metrics world
      ⟨[h.forwarded], .failed error, none, none, metrics, 0, 0⟩ := by
    intro error
    apply settles_direct received metadata metrics world (by simp)
    intro response client
    obtain rfl := Option.some.inj client
    exact intoResponse_values error
  unfold ProxyEnv.metadata
  cases world.replies 0 with
  | network e => exact failed (.network e)
  | timeout => exact failed .timeout
  | response reply =>
      cases body : reply.body with
      | error e =>
          simp only [body]
          exact failed (.network e)
      | ok bytes =>
          simp only [body]
          apply settles_direct received metadata metrics world (by simp)
          intro response client
          obtain rfl := Option.some.inj client
          exact HeaderMap.values_insert_self _ _ _

theorem settles_admitted {h : Handover} {body : Bytes}
    (received : (door.receive env.door incoming).1 = .ok h) (inference : h.isInference = true)
    (forwarded : h.forwarded = Proxy.forwardedRequest env.state.serde (incoming.client body)
      (h.idSlot.map UInt32.toNat)) (metrics : StreamMetrics) (world : Proxy.World) :
    env.Settles door incoming .ticket metrics world
      (env.admitted h (incoming.client body) metrics world) := by
  have only : ∀ h', (door.receive env.door incoming).1 = .ok h' → h' = h :=
    fun h' received' => Except.ok.inj (received'.symm.trans received)
  let guard := LifecycleGuard.new h.flowId h.workUnit.asI64
  have ends : Proxy.HandleEnds env.state (incoming.client body) (h.idSlot.map UInt32.toNat)
      env.requestId guard world (Proxy.handle env.state (incoming.client body)
        (h.idSlot.map UInt32.toNat) env.requestId guard metrics world) :=
    Proxy.handle_ends rfl env.requestId metrics world
  unfold admitted
  simp only
  generalize Proxy.handle env.state (incoming.client body) (h.idSlot.map UInt32.toNat) env.requestId
    (.new h.flowId h.workUnit.asI64) metrics world = handled at ends ⊢
  have opened : ∀ guard, some (LifecycleGuard.new h.flowId h.workUnit.asI64) = some guard ↔
      guard = .new h.flowId h.workUnit.asI64 := by
    intro guard
    simp [eq_comm]
  obtain ⟨requests, result, dropped, counters, errorsTotal⟩ := handled
  constructor
  · exact fun turned => absurd ⟨received, fun _ => rfl⟩ (turned h)
  · intro h' reaches
    obtain rfl := only h' reaches.1
    have sends := ends.requests
    simp only [← forwarded] at sends
    obtain ⟨reforwards, rest, bound, list, count⟩ := sends
    refine ⟨reforwards, rest, list, bound, ?_, fun metadata => by cases metadata.symm.trans inference⟩
    intro whole
    apply count
    rintro status headers rfl
    exact whole status headers rfl
  · simp
  · intro guard
    rw [opened]
    constructor
    · rintro rfl
      exact ⟨h, ⟨received, fun _ => rfl⟩, inference, rfl⟩
    · rintro ⟨h', reaches, -, rfl⟩
      rw [only h' reaches.1]
  · simp
  · intro response client
    cases result with
    | response answer =>
        obtain rfl := Option.some.inj client
        exact ends.echoed answer rfl
    | failed error =>
        obtain rfl := Option.some.inj client
        exact intoResponse_values _
    | streamed status headers => cases client
    | panicked => cases client
  · intro status headers same
    cases result with
    | streamed status' headers' =>
        cases same
        exact ⟨(ends.streamed status headers rfl).1, rfl, (ends.streamed status headers rfl).2⟩
    | response answer => cases same
    | failed error => cases same
    | panicked => cases same
  · intro guard isOpen without
    obtain rfl := (opened guard).mp isOpen
    have lost : (∃ error, result = .failed error) ∨ result = .panicked := by
      cases result with
      | failed error => exact .inl ⟨error, rfl⟩
      | panicked => exact .inr rfl
      | response answer => simp [Outcome.ofHandler] at without
      | streamed status headers => simp [Outcome.ofHandler] at without
    refine ⟨ends.restored lost, ?_⟩
    have range : InI64 (h.workUnit.asI64 - 0) := by
      rw [Int.sub_zero]
      exact h.workUnit.asI64_inI64
    simp [LifecycleGuard.restoreCost, LifecycleGuard.new, I64Arith.saturatingSub_of_inI64 _ range]
  · intro guard response isOpen answered
    obtain rfl := (opened guard).mp isOpen
    cases result with
    | response answer =>
        obtain rfl := Outcome.response.inj answered
        exact ends.charged answer rfl
    | streamed status headers => cases answered
    | failed error => cases answered
    | panicked => cases answered
  · intro guard _
    rw [show errorsTotal = _ from ends.errors]
    cases result <;> rfl

/-- For every configuration, every request and whatever the scheduler and the backend do. -/
theorem every_exchange_settles (env : ProxyEnv) (door : FrontDoor) (incoming : Incoming)
    (admission : AdmissionResult) (metrics : StreamMetrics) (world : Proxy.World) :
    env.Settles door incoming admission metrics world
      (env.proxyHandler door incoming admission metrics world) := by
  unfold proxyHandler
  cases received : (door.receive env.door incoming).1 with
  | error e =>
      apply settles_turnedAway
      · intro h reaches
        cases received.symm.trans reaches.1
      · simp [received]
  | ok h =>
      obtain ⟨body, handled⟩ := FrontDoor.handled received
      rw [handled.accepted]
      simp only
      cases inference : h.isInference with
      | false => exact settles_metadata received inference metrics world
      | true =>
          cases admission with
          | ticket => exact settles_admitted received inference handled.forwarded metrics world
          | rejected retryAfter =>
              apply settles_turnedAway
              · intro h' reaches
                have same := Except.ok.inj (reaches.1.symm.trans received)
                subst same
                cases reaches.2 inference
              · simp [received, inference]

end ProxyEnv

end TinyLlb
