import Mathlib.Tactic.Ring
import TinyLlb.Gateway.Headers
import TinyLlb.Library.Retry

/-! # The transient re-forward loop

`transient_retry` with all that it touches: the requests it sends and the sleeps
before them, the counters, the response it builds and the lifecycle guard that it is
given. `Stream/Reforward` keeps less of the same loop; the two agree. `replies` gives
what each send comes back with, the first re-forward at 1.
-/

namespace TinyLlb

/-- A request to the backend. Method and URL are those of the client's request. -/
structure BackendRequest where
  headers : HeaderMap
  body : Bytes

/-- A response of the backend, with what collecting its body gives. -/
structure BackendResponse where
  status : Nat
  headers : HeaderMap
  body : Except NetworkError Bytes

inductive Reply where
  | response (response : BackendResponse)
  | network (error : NetworkError)
  | timeout

/-- A response to the client. -/
structure ClientResponse where
  status : Nat
  headers : HeaderMap
  body : Bytes

namespace Reply

/-- The reply without its headers. -/
def outcome : Reply → SendOutcome
  | response r => .response r.status r.body
  | network error => .network error
  | timeout => .timeout

end Reply

/-- What `send_retry_request` and `send_retry_request_with_error` send. -/
def retryRequest (headers : HeaderMap) (body : Bytes) : BackendRequest :=
  ⟨headers.remove HeaderMap.contentLength, body⟩

/-- The backend's error response as the client gets it. -/
def buildErrorResponse (requestId : Bytes) (status : Nat) (headers : HeaderMap) (body : Bytes) :
    ClientResponse :=
  { status
    headers := (headers.filterResponseHeaders).insert (ascii "x-request-id") requestId
    body }

namespace Proxy

/-- How the loop ends, with the guard that it returns or drops. -/
inductive TransientRetryOutcome where
  | success (response : BackendResponse) (lifecycle : LifecycleGuard)
  | finalResponse (response : ClientResponse) (dropped : LifecycleGuard)
  | failed (error : ProxyError) (dropped : LifecycleGuard)

structure TransientRetryRun where
  /-- Every re-forward, with the sleep before it. -/
  sends : List (Duration × BackendRequest)
  metrics : StreamMetrics
  outcome : TransientRetryOutcome

/-- What the loop captures. -/
structure Reforwarding where
  policy : TransientRetry
  fromSlice : Bytes → Option Json
  headers : HeaderMap
  body : Bytes
  requestId : Bytes
  lifecycle : LifecycleGuard

section

variable (call : Reforwarding) (replies : Nat → Reply)

def countRetry (metrics : StreamMetrics) : StreamMetrics :=
  { metrics with backendRetries := metrics.backendRetries + 1 }

def countExhausted (metrics : StreamMetrics) : StreamMetrics :=
  { metrics with backendRetryExhausted := metrics.backendRetryExhausted + 1 }

/-- The loop, after `attempt` re-forwards. -/
def transientRetryFrom (attempt : Nat) (sends : List (Duration × BackendRequest))
    (metrics : StreamMetrics) : TransientRetryRun :=
  let attempt' := attempt + 1
  let sends := sends ++ [(transientBackoff attempt' call.policy, retryRequest call.headers call.body)]
  let metrics := countRetry metrics
  match replies attempt' with
  | .response response =>
      if isSuccessStatus response.status then ⟨sends, metrics, .success response call.lifecycle⟩
      else
        match response.body with
        | .error e => ⟨sends, metrics, .failed (.network e) call.lifecycle⟩
        | .ok bytes =>
            let final := TransientRetryOutcome.finalResponse
              (buildErrorResponse call.requestId response.status response.headers bytes)
              call.lifecycle.markCompleted
            if classifyLlamacppError call.fromSlice bytes = .transient then
              if attempt' < call.policy.maxAttempts then transientRetryFrom attempt' sends metrics
              else ⟨sends, countExhausted metrics, final⟩
            else ⟨sends, metrics, final⟩
  | .timeout => ⟨sends, metrics, .failed .timeout call.lifecycle⟩
  | .network e =>
      if isTransientNetworkError e then
        if attempt' < call.policy.maxAttempts then transientRetryFrom attempt' sends metrics
        else ⟨sends, countExhausted metrics, .failed (.network e) call.lifecycle⟩
      else ⟨sends, metrics, .failed (.network e) call.lifecycle⟩
termination_by call.policy.maxAttempts - attempt

def transientRetry (metrics : StreamMetrics) : TransientRetryRun :=
  transientRetryFrom call replies 0 [] metrics

end

section

variable {call : Reforwarding} {replies : Nat → Reply}

/-- The reply is one that clears by itself. -/
def again (call : Reforwarding) (replies : Nat → Reply) (i : Nat) : Bool :=
  (replies i).outcome.isTransient call.fromSlice

/-- How the loop ends on a reply, if it ends there. -/
def ending (call : Reforwarding) : Reply → TransientRetryOutcome
  | .response response =>
      if isSuccessStatus response.status then .success response call.lifecycle
      else
        match response.body with
        | .error e => .failed (.network e) call.lifecycle
        | .ok bytes =>
            .finalResponse (buildErrorResponse call.requestId response.status response.headers bytes)
              call.lifecycle.markCompleted
  | .timeout => .failed .timeout call.lifecycle
  | .network e => .failed (.network e) call.lifecycle

theorem transientRetryFrom_eq (attempt : Nat) (sends : List (Duration × BackendRequest))
    (metrics : StreamMetrics) :
    transientRetryFrom call replies attempt sends metrics =
      let sends := sends ++
        [(transientBackoff (attempt + 1) call.policy, retryRequest call.headers call.body)]
      if again call replies (attempt + 1) = true then
        if attempt + 1 < call.policy.maxAttempts then
          transientRetryFrom call replies (attempt + 1) sends (countRetry metrics)
        else ⟨sends, countExhausted (countRetry metrics), ending call (replies (attempt + 1))⟩
      else ⟨sends, countRetry metrics, ending call (replies (attempt + 1))⟩ := by
  rw [transientRetryFrom]
  unfold again
  cases replies (attempt + 1) with
  | timeout => rfl
  | network e => rfl
  | response response =>
      obtain ⟨status, headers, body⟩ := response
      simp only [Reply.outcome, ending]
      by_cases success : isSuccessStatus status = true
      · cases body <;> simp [success, SendOutcome.isTransient]
      · cases body with
        | error e => simp [success, SendOutcome.isTransient]
        | ok bytes => simp [success, SendOutcome.isTransient]

/-- The re-forwards from one attempt up to another. -/
def sendsUpTo (call : Reforwarding) (first count : Nat) : List (Duration × BackendRequest) :=
  (List.range' first count).map fun i =>
    (transientBackoff i call.policy, retryRequest call.headers call.body)

/-- The counters after that many re-forwards. -/
def counted (metrics : StreamMetrics) (sends exhausted : Nat) : StreamMetrics :=
  { metrics with
    backendRetries := metrics.backendRetries + sends
    backendRetryExhausted := metrics.backendRetryExhausted + exhausted }

theorem transientRetryFrom_run (left attempt : Nat) (sends : List (Duration × BackendRequest))
    (metrics : StreamMetrics) (budget : attempt + 1 + left = call.policy.maxAttempts) :
    transientRetryFrom call replies attempt sends metrics =
      let k := Retry.stop (again call replies) left (attempt + 1)
      ⟨sends ++ sendsUpTo call (attempt + 1) (k - attempt),
        counted metrics (k - attempt) (again call replies k).toNat, ending call (replies k)⟩ := by
  induction left generalizing attempt sends metrics with
  | zero =>
      rw [transientRetryFrom_eq]
      have last : ¬ attempt + 1 < call.policy.maxAttempts := by omega
      have one : attempt + 1 - attempt = 1 := by omega
      simp only [Retry.stop, one, if_neg last]
      cases again call replies (attempt + 1) with
      | true => rfl
      | false => rfl
  | succ left ih =>
      rw [transientRetryFrom_eq]
      cases here : again call replies (attempt + 1) with
      | false =>
          have one : attempt + 1 - attempt = 1 := by omega
          simp only [Retry.stop_settled here, one, here]
          rfl
      | true =>
          have more : attempt + 1 < call.policy.maxAttempts := by omega
          have later := Retry.le_stop (again call replies) left (attempt + 2)
          rw [Retry.stop_succ here]
          simp only [if_true, if_pos more, ih (attempt + 1) _ _ (by omega)]
          generalize Retry.stop (again call replies) left (attempt + 2) = k at later ⊢
          obtain ⟨count, size⟩ : ∃ count, k - attempt = count + 1 := ⟨k - attempt - 1, by omega⟩
          have rest : k - (attempt + 1) = count := by omega
          have log : sendsUpTo call (attempt + 1) (count + 1) =
              (transientBackoff (attempt + 1) call.policy, retryRequest call.headers call.body) ::
                sendsUpTo call (attempt + 2) count := rfl
          have counters : counted (countRetry metrics) count (again call replies k).toNat =
              counted metrics (count + 1) (again call replies k).toNat := by
            simp [counted, countRetry, Nat.add_comm, Nat.add_left_comm]
          rw [size, rest, log, counters, List.append_assoc, List.singleton_append]

/-- The number of re-forwards of the whole loop. -/
def reforwards (call : Reforwarding) (replies : Nat → Reply) : Nat :=
  Retry.stop (again call replies) (call.policy.maxAttempts - 1) 1

theorem transientRetry_run (call : Reforwarding) (replies : Nat → Reply) (metrics : StreamMetrics)
    (enabled : 1 ≤ call.policy.maxAttempts) :
    transientRetry call replies metrics =
      let k := reforwards call replies
      ⟨sendsUpTo call 1 k, counted metrics k (again call replies k).toNat, ending call (replies k)⟩ :=
  transientRetryFrom_run (call.policy.maxAttempts - 1) 0 [] metrics (by omega)

namespace TransientRetryOutcome

/-- The outcome without headers and guard. -/
def forget : TransientRetryOutcome → TinyLlb.TransientRetryOutcome
  | success response _ => .success response.status
  | finalResponse response _ => .finalResponse response.status response.body
  | failed error _ => .failed error

end TransientRetryOutcome

namespace TransientRetryRun

/-- The run without what it sent, next to the exhausted counter from before it. -/
def forget (run : TransientRetryRun) (exhausted : Nat) : TinyLlb.TransientRetryRun :=
  ⟨run.sends.map Prod.fst, decide (exhausted < run.metrics.backendRetryExhausted), run.outcome.forget⟩

end TransientRetryRun

theorem reforward_eq (attempt : Nat) (delays : List Duration) :
    TinyLlb.transientRetryFrom call.fromSlice call.policy (fun i => (replies i).outcome) attempt
        delays =
      let delays := delays ++ [transientBackoff (attempt + 1) call.policy]
      if again call replies (attempt + 1) = true then
        if attempt + 1 < call.policy.maxAttempts then
          TinyLlb.transientRetryFrom call.fromSlice call.policy (fun i => (replies i).outcome)
            (attempt + 1) delays
        else ⟨delays, true, (ending call (replies (attempt + 1))).forget⟩
      else ⟨delays, false, (ending call (replies (attempt + 1))).forget⟩ := by
  rw [TinyLlb.transientRetryFrom]
  unfold again
  cases replies (attempt + 1) with
  | timeout => rfl
  | network e => rfl
  | response response =>
      obtain ⟨status, headers, body⟩ := response
      simp only [Reply.outcome, ending]
      by_cases success : isSuccessStatus status = true
      · cases body <;> simp [success, SendOutcome.isTransient, TransientRetryOutcome.forget]
      · cases body <;> simp [success, SendOutcome.isTransient, TransientRetryOutcome.forget,
          buildErrorResponse]

/-- The two models of the loop agree. -/
theorem forget_transientRetryFrom (left attempt : Nat) (sends : List (Duration × BackendRequest))
    (metrics : StreamMetrics) (budget : call.policy.maxAttempts ≤ attempt + 1 + left) :
    (transientRetryFrom call replies attempt sends metrics).forget metrics.backendRetryExhausted =
      TinyLlb.transientRetryFrom call.fromSlice call.policy (fun i => (replies i).outcome) attempt
        (sends.map Prod.fst) := by
  induction left generalizing attempt sends metrics with
  | zero =>
      have last : ¬ attempt + 1 < call.policy.maxAttempts := by omega
      rw [transientRetryFrom_eq, reforward_eq]
      simp only [if_neg last]
      cases again call replies (attempt + 1) <;>
        simp [TransientRetryRun.forget, countRetry, countExhausted]
  | succ left ih =>
      have later := ih (attempt + 1) (sends ++
        [(transientBackoff (attempt + 1) call.policy, retryRequest call.headers call.body)])
        (countRetry metrics) (by omega)
      rw [transientRetryFrom_eq, reforward_eq]
      cases again call replies (attempt + 1) with
      | false => simp [TransientRetryRun.forget, countRetry]
      | true =>
          by_cases more : attempt + 1 < call.policy.maxAttempts
          · simpa [more, countRetry] using later
          · simp [more, TransientRetryRun.forget, countRetry, countExhausted]

theorem forget_transientRetry (call : Reforwarding) (replies : Nat → Reply) (metrics : StreamMetrics) :
    (transientRetry call replies metrics).forget metrics.backendRetryExhausted =
      TinyLlb.transientRetry call.fromSlice call.policy fun i => (replies i).outcome :=
  forget_transientRetryFrom call.policy.maxAttempts 0 [] metrics (by omega)

theorem backoffAfter_eq {policy : TransientRetry} {delay : Duration} (low : delay ≤ policy.backoffMax)
    (n : Nat) : backoffAfter policy delay n = min (delay * 2 ^ n) policy.backoffMax := by
  induction n generalizing delay with
  | zero => simp [backoffAfter, low]
  | succ n ih =>
      have power : delay * 2 ^ (n + 1) = delay * 2 * 2 ^ n := by rw [Nat.pow_succ]; ring
      unfold backoffAfter
      split
      · rename_i high
        have more : delay * 2 ≤ delay * 2 * 2 ^ n := Nat.le_mul_of_pos_right _ (Nat.two_pow_pos n)
        rw [power, min_eq_right (Nat.le_trans high more)]
      · rename_i below
        rw [power, ih (Nat.le_of_not_le below)]

theorem sendsUpTo_first (low : call.policy.backoffStart ≤ call.policy.backoffMax) (k : Nat) :
    sendsUpTo call 1 k = (List.range k).map fun i =>
      (min (call.policy.backoffStart * 2 ^ i) call.policy.backoffMax,
        ⟨call.headers.remove HeaderMap.contentLength, call.body⟩) := by
  unfold sendsUpTo
  rw [List.range'_eq_map_range, List.map_map]
  apply List.map_congr_left
  intro i _
  have delay : transientBackoff (1 + i) call.policy =
      min (call.policy.backoffStart * 2 ^ i) call.policy.backoffMax := by
    unfold transientBackoff
    rw [Nat.add_sub_cancel_left, backoffAfter_eq low]
  simp [delay, retryRequest]

theorem ending_failed {reply : Reply}
    (failure : (∀ response, reply ≠ .response response) ∨ ∃ response e, reply = .response response ∧
      isSuccessStatus response.status = false ∧ response.body = .error e) :
    ∃ error, ending call reply = .failed error call.lifecycle := by
  rcases failure with absent | ⟨response, e, rfl, failed, body⟩
  · cases reply with
    | response response => exact absurd rfl (absent response)
    | network e => exact ⟨_, rfl⟩
    | timeout => exact ⟨_, rfl⟩
  · exact ⟨.network e, by simp [ending, failed, body]⟩

/-- What is expected of a loop that made `k` re-forwards. -/
structure TransientRetrySpec (call : Reforwarding) (replies : Nat → Reply) (metrics : StreamMetrics)
    (run : TransientRetryRun) (k : Nat) : Prop where
  positive : 1 ≤ k
  budget : k ≤ call.policy.maxAttempts
  transient : ∀ i, 1 ≤ i → i < k → again call replies i = true
  last : again call replies k = true → k = call.policy.maxAttempts
  /-- The sleeps, and the identical request each time. -/
  sends : run.sends = (List.range k).map fun i =>
    (min (call.policy.backoffStart * 2 ^ i) call.policy.backoffMax,
      ⟨call.headers.remove HeaderMap.contentLength, call.body⟩)
  counters : run.metrics = { metrics with
    backendRetries := metrics.backendRetries + k
    backendRetryExhausted := metrics.backendRetryExhausted + (again call replies k).toNat }
  /-- The guard comes back as it was. -/
  succeeds : ∀ response, replies k = .response response → isSuccessStatus response.status = true →
    run.outcome = .success response call.lifecycle
  /-- The guard is marked and dropped with the response. -/
  responds : ∀ response bytes, replies k = .response response →
    isSuccessStatus response.status = false → response.body = .ok bytes →
      run.outcome = .finalResponse
        (buildErrorResponse call.requestId response.status response.headers bytes)
        call.lifecycle.markCompleted
  /-- The guard is dropped as it was. -/
  fails : ((∀ response, replies k ≠ .response response) ∨ ∃ response e, replies k = .response response ∧
      isSuccessStatus response.status = false ∧ response.body = .error e) →
    ∃ error, run.outcome = .failed error call.lifecycle

end

/-- Refused once, and answered then. -/
def refusedOnce (attempt : Nat) : Reply :=
  if attempt = 1 then .network ⟨true, []⟩ else .response ⟨200, [], .ok []⟩

def sampleReforwarding : Reforwarding :=
  { policy := .default, fromSlice := sampleReader, headers := [], body := ascii "\x7b\x7d"
    requestId := ascii "id", lifecycle := .new ⟨"f"⟩ 100 }

end Proxy

end TinyLlb
