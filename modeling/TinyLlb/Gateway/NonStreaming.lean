import TinyLlb.Gateway.Forwarding
import TinyLlb.Gateway.PrematureStop

/-! # Non-streaming responses

A whole body that is degenerate is asked for again at a higher temperature. A retry
that fails leaves the last body that was received; status and headers stay those of
the first response. `replies` gives what each re-send comes back with, the first one
at 1.
-/

namespace TinyLlb

namespace Reply

/-- The body of a successful reply, if it can be read. -/
def readable : Reply → Option Bytes
  | response r => if isSuccessStatus r.status then r.body.toOption else none
  | network _ => none
  | timeout => none

end Reply

namespace Proxy

/-- What the handler has at hand when the body is there. -/
structure Exchange where
  policy : RetryPolicy
  serde : Serde
  arith : I64Arith
  isChat : Bool
  /-- The forwarded request. -/
  headers : HeaderMap
  forwardedBody : Bytes
  requestId : Bytes

def extractCompletionTokens (fromSlice : Bytes → Option Json) (body : Bytes) : Int :=
  match fromSlice body with
  | some value => usageTokens value
  | none => 0

/-- What the retry loop leaves behind. -/
structure PrematureRetry where
  retryAttempts : Nat
  body : Bytes
  sends : List BackendRequest
  metrics : StreamMetrics

structure NonStreamingRun where
  sends : List BackendRequest
  metrics : StreamMetrics
  /-- The guard as it is dropped. -/
  lifecycle : LifecycleGuard
  response : ClientResponse

section

variable (call : Exchange) (replies : Nat → Reply)

def isPremature (body : Bytes) : Bool := (call.serde.fromSlice body).any isPrematureStop

def countDetected (metrics : StreamMetrics) : StreamMetrics :=
  { metrics with
    prematureStopDetected := metrics.prematureStopDetected + 1
    prematureStopRetries := metrics.prematureStopRetries + 1 }

def countPrematureExhausted (metrics : StreamMetrics) : StreamMetrics :=
  { metrics with prematureStopExhausted := metrics.prematureStopExhausted + 1 }

/-- The loop, on the parsed request; nothing where an assignment in it panics. -/
def prematureRetryFrom (forwarded : Json) (retryAttempts : Nat) (body : Bytes)
    (sends : List BackendRequest) (metrics : StreamMetrics) : Option PrematureRetry :=
  if _ : isPremature call body = true ∧ retryAttempts < call.policy.maxRetries then
    let metrics := countDetected metrics
    let retryAttempts' := retryAttempts + 1
    match bumpTemperature forwarded retryAttempts' call.policy with
    | none => none
    | some retryValue =>
        match call.serde.toVec retryValue with
        | none => some ⟨retryAttempts', body, sends, metrics⟩
        | some retryBytes =>
            let sends := sends ++ [retryRequest call.headers retryBytes]
            match replies retryAttempts' with
            | .response r =>
                if isSuccessStatus r.status then
                  match r.body with
                  | .ok bytes => prematureRetryFrom forwarded retryAttempts' bytes sends metrics
                  | .error _ => some ⟨retryAttempts', body, sends, metrics⟩
                else some ⟨retryAttempts', body, sends, metrics⟩
            | .network _ => some ⟨retryAttempts', body, sends, metrics⟩
            | .timeout => some ⟨retryAttempts', body, sends, metrics⟩
  else some ⟨retryAttempts, body, sends, metrics⟩
termination_by call.policy.maxRetries - retryAttempts

/-- The loop behind its gate, with the check that follows it. -/
def prematureRetry (body : Bytes) (metrics : StreamMetrics) : Option PrematureRetry :=
  if call.policy.enabled = true ∧ call.policy.maxRetries > 0 ∧ call.isChat = true then
    match call.serde.fromSlice call.forwardedBody with
    | some forwarded =>
        (prematureRetryFrom call replies forwarded 0 body [] metrics).map fun loop =>
          if loop.retryAttempts ≥ call.policy.maxRetries ∧ isPremature call loop.body = true then
            { loop with metrics := countPrematureExhausted loop.metrics }
          else loop
    | none => some ⟨0, body, [], metrics⟩
  else some ⟨0, body, [], metrics⟩

/-- The handler, once the body of a non-streaming response has been collected. -/
def nonStreaming (lifecycle : LifecycleGuard) (metrics : StreamMetrics) (status : Nat)
    (responseHeaders : HeaderMap) (body : Bytes) : Option NonStreamingRun :=
  (prematureRetry call replies body metrics).map fun loop =>
    let completionTokens := extractCompletionTokens call.serde.fromSlice loop.body
    let counted := completionTokens > 0
    { sends := loop.sends
      metrics :=
        if counted then
          { loop.metrics with tokensGenerated := loop.metrics.tokensGenerated + completionTokens }
        else loop.metrics
      lifecycle :=
        (if counted then lifecycle.addDeliveredTokens call.arith completionTokens
          else lifecycle).markCompleted
      response :=
        { status
          headers := ((responseHeaders.filterResponseHeaders).insert (ascii "x-request-id")
              call.requestId).insert (ascii "x-tinyllb-premature-stop-retries")
              (ascii (toString loop.retryAttempts))
          body := loop.body } }

end

/-- The last body that was received, after that many re-sends. -/
def received (replies : Nat → Reply) (first : Bytes) : Nat → Bytes
  | 0 => first
  | i + 1 => ((replies (i + 1)).readable).getD (received replies first i)

/-- The re-send did not fail. -/
def resent (replies : Nat → Reply) (i : Nat) : Bool := i == 0 || (replies i).readable.isSome

/-- After that many re-sends another one is called for. -/
def goesOn (call : Exchange) (replies : Nat → Reply) (first : Bytes) (i : Nat) : Bool :=
  isPremature call (received replies first i) && resent replies i

/-- The i-th re-send. -/
def resend (call : Exchange) (forwarded : Json) (i : Nat) : Option BackendRequest :=
  ((bumpTemperature forwarded i call.policy).bind call.serde.toVec).map (retryRequest call.headers)

/-- The counters after that many re-sends. -/
def countedResends (metrics : StreamMetrics) (resends : Nat) : StreamMetrics :=
  { metrics with
    prematureStopDetected := metrics.prematureStopDetected + resends
    prematureStopRetries := metrics.prematureStopRetries + resends }

section

variable {call : Exchange} {replies : Nat → Reply} {forwarded : Json} {first : Bytes}

theorem resend_total (writes : ∀ value, (call.serde.toVec value).isSome = true)
    (assignable : forwarded.isAssignable = true) (i : Nat) :
    ∃ value bytes, bumpTemperature forwarded i call.policy = some value ∧
      call.serde.toVec value = some bytes ∧
        resend call forwarded i = some (retryRequest call.headers bytes) := by
  have total : (bumpTemperature forwarded i call.policy).isSome = true := by
    rw [← assignable]
    exact Json.isSome_set _ _ _
  obtain ⟨value, bump⟩ := Option.isSome_iff_exists.mp total
  obtain ⟨bytes, written⟩ := Option.isSome_iff_exists.mp (writes value)
  exact ⟨value, bytes, bump, written, by simp [resend, bump, written]⟩

theorem prematureRetryFrom_resend {i : Nat} {sends : List BackendRequest} {metrics : StreamMetrics}
    {request : BackendRequest} (writes : ∀ value, (call.serde.toVec value).isSome = true)
    (assignable : forwarded.isAssignable = true) (more : i < call.policy.maxRetries)
    (premature : isPremature call (received replies first i) = true)
    (sent : resend call forwarded (i + 1) = some request) :
    prematureRetryFrom call replies forwarded i (received replies first i) sends metrics =
      if resent replies (i + 1) = true then
        prematureRetryFrom call replies forwarded (i + 1) (received replies first (i + 1))
          (sends ++ [request]) (countDetected metrics)
      else some ⟨i + 1, received replies first (i + 1), sends ++ [request], countDetected metrics⟩ := by
  obtain ⟨value, bytes, bump, written, sent'⟩ := resend_total writes assignable (i + 1)
  obtain rfl := Option.some.inj (sent.symm.trans sent')
  rw [prematureRetryFrom, dif_pos ⟨premature, more⟩]
  simp only [bump, written]
  cases reply : replies (i + 1) with
  | timeout => simp [received, resent, reply, Reply.readable]
  | network e => simp [received, resent, reply, Reply.readable]
  | response r =>
      obtain ⟨status, headers, body⟩ := r
      cases success : isSuccessStatus status with
      | false => simp [received, resent, reply, Reply.readable, success]
      | true =>
          cases body <;> simp [received, resent, reply, Reply.readable, success, Except.toOption]

/-- The loop stops at the first re-send after which no other one is called for. -/
theorem prematureRetryFrom_run (first : Bytes) (writes : ∀ value, (call.serde.toVec value).isSome = true)
    (assignable : forwarded.isAssignable = true) (left i : Nat) (sends : List BackendRequest)
    (metrics : StreamMetrics) (budget : i + left = call.policy.maxRetries)
    (here : resent replies i = true) :
    let n := Retry.stop (goesOn call replies first) left i
    ∃ resends, resends.map some = (List.range' (i + 1) (n - i)).map (resend call forwarded) ∧
      prematureRetryFrom call replies forwarded i (received replies first i) sends metrics =
        some ⟨n, received replies first n, sends ++ resends, countedResends metrics (n - i)⟩ := by
  induction left generalizing i sends metrics with
  | zero =>
      have last : ¬ i < call.policy.maxRetries := by omega
      refine ⟨[], by simp [Retry.stop], ?_⟩
      rw [prematureRetryFrom, dif_neg (fun both => last both.2)]
      simp [Retry.stop, countedResends]
  | succ left ih =>
      cases going : goesOn call replies first i with
      | false =>
          have settled : isPremature call (received replies first i) = false := by
            simpa [goesOn, here] using going
          rw [Retry.stop_settled going]
          refine ⟨[], by simp, ?_⟩
          rw [prematureRetryFrom, dif_neg (fun both => by simp [settled] at both)]
          simp [countedResends]
      | true =>
          have premature : isPremature call (received replies first i) = true := by
            simpa [goesOn, here] using going
          obtain ⟨value, bytes, -, -, sent⟩ := resend_total writes assignable (i + 1)
          have counters : ∀ count, countedResends (countDetected metrics) count =
              countedResends metrics (count + 1) := by
            intro count
            simp [countedResends, countDetected, Nat.add_comm, Nat.add_left_comm]
          rw [Retry.stop_succ going,
            prematureRetryFrom_resend writes assignable (by omega) premature sent]
          cases next : resent replies (i + 1) with
          | false =>
              have ends : goesOn call replies first (i + 1) = false := by simp [goesOn, next]
              have one : i + 1 - i = 1 := by omega
              rw [Retry.stop_settled ends]
              simp only [one]
              exact ⟨[retryRequest call.headers bytes], by simp [sent], rfl⟩
          | true =>
              obtain ⟨resends, list, run⟩ := ih (i + 1) (sends ++ [retryRequest call.headers bytes])
                (countDetected metrics) (by omega) next
              have later := Retry.le_stop (goesOn call replies first) left (i + 1)
              generalize Retry.stop (goesOn call replies first) left (i + 1) = n at later list run ⊢
              obtain ⟨count, size⟩ : ∃ count, n - i = count + 1 := ⟨n - i - 1, by omega⟩
              have rest : n - (i + 1) = count := by omega
              rw [rest] at list run
              refine ⟨retryRequest call.headers bytes :: resends, ?_, ?_⟩
              · rw [size, List.range'_succ, List.map_cons, List.map_cons, sent, list]
              · rw [if_pos rfl, run, size, counters, List.append_assoc, List.singleton_append]

theorem prematureRetry_run (replies : Nat → Reply) (first : Bytes)
    (writes : ∀ value, (call.serde.toVec value).isSome = true)
    (read : call.serde.fromSlice call.forwardedBody = some forwarded)
    (assignable : forwarded.isAssignable = true) (enabled : call.policy.enabled = true)
    (budget : 1 ≤ call.policy.maxRetries) (chat : call.isChat = true) (metrics : StreamMetrics) :
    let n := Retry.stop (goesOn call replies first) call.policy.maxRetries 0
    let exhausted := decide (n = call.policy.maxRetries) && isPremature call (received replies first n)
    ∃ resends, resends.map some = (List.range n).map (fun i => resend call forwarded (i + 1)) ∧
      prematureRetry call replies first metrics = some ⟨n, received replies first n, resends,
        { countedResends metrics n with
          prematureStopExhausted := metrics.prematureStopExhausted + exhausted.toNat }⟩ := by
  obtain ⟨resends, list, run⟩ := prematureRetryFrom_run first writes assignable
    call.policy.maxRetries 0 [] metrics (Nat.zero_add _) (rfl : resent replies 0 = true)
  have bound := Retry.stop_le (goesOn call replies first) call.policy.maxRetries 0
  simp only [Nat.sub_zero, List.nil_append, received] at list run
  refine ⟨resends, ?_, ?_⟩
  · rw [list, List.range'_eq_map_range, List.map_map]
    apply List.map_congr_left
    intro i _
    simp [Nat.add_comm]
  · unfold prematureRetry
    rw [if_pos ⟨enabled, budget, chat⟩]
    simp only [read, run, Option.map_some, Option.some.injEq]
    generalize Retry.stop (goesOn call replies first) call.policy.maxRetries 0 = n at bound ⊢
    cases exhausted : decide (n = call.policy.maxRetries) &&
        isPremature call (received replies first n) with
    | true =>
        simp only [Bool.and_eq_true, decide_eq_true_eq] at exhausted
        rw [if_pos ⟨Nat.le_of_eq exhausted.1.symm, exhausted.2⟩]
        rfl
    | false =>
        have open_ :
            ¬ (n ≥ call.policy.maxRetries ∧ isPremature call (received replies first n) = true) := by
          rintro ⟨all, premature⟩
          have last : n = call.policy.maxRetries := by omega
          simp [decide_eq_true last, premature] at exhausted
        rw [if_neg open_]
        rfl

/-- What is expected of the path after `n` re-sends. -/
structure NonStreamingSpec (call : Exchange) (forwarded : Json) (replies : Nat → Reply) (first : Bytes)
    (lifecycle : LifecycleGuard) (metrics : StreamMetrics) (run : NonStreamingRun) (n : Nat) : Prop where
  budget : n ≤ call.policy.maxRetries
  /-- A re-send is made exactly while the last body is premature, none has failed and
      one is left. -/
  goes : ∀ i, i < n → isPremature call (received replies first i) = true ∧ resent replies i = true
  stops : n = call.policy.maxRetries ∨ isPremature call (received replies first n) = false ∨
    resent replies n = false
  sends : run.sends.map some = (List.range n).map fun i => resend call forwarded (i + 1)
  body : run.response.body = received replies first n
  /-- The tokens of the returned body, and no others. -/
  charged : run.lifecycle = { lifecycle with
    completedNormally := true
    deliveredTokens :=
      call.arith.store (max 0 (extractCompletionTokens call.serde.fromSlice run.response.body)) }
  counters : run.metrics = { metrics with
    tokensGenerated :=
      metrics.tokensGenerated + max 0 (extractCompletionTokens call.serde.fromSlice run.response.body)
    prematureStopDetected := metrics.prematureStopDetected + n
    prematureStopRetries := metrics.prematureStopRetries + n
    prematureStopExhausted := metrics.prematureStopExhausted +
      (decide (n = call.policy.maxRetries) && isPremature call run.response.body).toNat }
  header : run.response.headers.values (ascii "x-tinyllb-premature-stop-retries") =
    [ascii (toString n)]

theorem nonStreaming_spec (call : Exchange)
    (writes : ∀ value, (call.serde.toVec value).isSome = true)
    (read : call.serde.fromSlice call.forwardedBody = some forwarded)
    (assignable : forwarded.isAssignable = true) (enabled : call.policy.enabled = true)
    (budget : 1 ≤ call.policy.maxRetries) (chat : call.isChat = true) {lifecycle : LifecycleGuard}
    (fresh : lifecycle.deliveredTokens = 0) (metrics : StreamMetrics) (status : Nat)
    (responseHeaders : HeaderMap) (first : Bytes) (replies : Nat → Reply) :
    ∃ run n, nonStreaming call replies lifecycle metrics status responseHeaders first = some run ∧
      NonStreamingSpec call forwarded replies first lifecycle metrics run n := by
  obtain ⟨resends, list, loop⟩ := prematureRetry_run replies first writes read assignable
    enabled budget chat metrics
  have bound := Retry.stop_le (goesOn call replies first) call.policy.maxRetries 0
  have stops := Retry.stop_cases (goesOn call replies first) call.policy.maxRetries 0
  have before : ∀ i, i < Retry.stop (goesOn call replies first) call.policy.maxRetries 0 → _ :=
    fun i less => Retry.again_of_lt (Nat.zero_le i) less
  generalize Retry.stop (goesOn call replies first) call.policy.maxRetries 0 = n
    at list loop bound stops before
  unfold nonStreaming
  rw [loop]
  refine ⟨_, n, rfl, ?_⟩
  constructor
  · omega
  · intro i less
    simpa [goesOn] using before i less
  · rcases stops with settled | last
    · exact .inr (Bool.and_eq_false_iff.mp settled)
    · exact .inl (by omega)
  · exact list
  · rfl
  · by_cases some_ : extractCompletionTokens call.serde.fromSlice (received replies first n) > 0
    · simp [some_, max_eq_right some_.le, LifecycleGuard.addDeliveredTokens, LifecycleGuard.markCompleted,
        fresh]
    · have zero : call.arith.store 0 = 0 := call.arith.store_of_inI64 (by decide)
      simp [some_, max_eq_left (not_lt.mp some_), LifecycleGuard.markCompleted, zero, fresh]
  · by_cases some_ : extractCompletionTokens call.serde.fromSlice (received replies first n) > 0
    · simp [some_, max_eq_right some_.le, countedResends]
    · simp [some_, max_eq_left (not_lt.mp some_), countedResends]
  · exact HeaderMap.values_insert_self _ _ _

end

/-- What the handler keeps of a request. -/
def exchange (policy : RetryPolicy) (serde : Serde) (arith : I64Arith) (request : ClientRequest)
    (idSlot : Option Nat) (requestId : Bytes) : Exchange :=
  { policy, serde, arith, isChat := request.isChat, headers := forwardedHeaders serde request idSlot
    forwardedBody := forwardedBody serde request.body idSlot, requestId }

def sampleDegenerate : Json :=
  .object [("choices", .array [.object
    [("finish_reason", .string "stop"), ("message", .object [("content", .string "")])]])]

def sampleAnswer : Json :=
  .object [("choices", .array [.object
      [("finish_reason", .string "stop"), ("message", .object [("content", .string "hi")])]]),
    ("usage", .object [("completion_tokens", .number (.posInt 2))])]

def degenerateText : Bytes :=
  ascii "\x7b\"choices\":[\x7b\"finish_reason\":\"stop\",\"message\":\x7b\"content\":\"\"\x7d\x7d]\x7d"

def answerText : Bytes :=
  ascii ("\x7b\"choices\":[\x7b\"finish_reason\":\"stop\",\"message\":\x7b\"content\":\"hi\"\x7d\x7d]," ++
    "\"usage\":\x7b\"completion_tokens\":2\x7d\x7d")

def warmerText : Bytes := ascii "\x7b\"temperature\":0.3\x7d"

def emptyText : Bytes := ascii "\x7b\x7d"

/-- A reader of these texts and a writer of the requests among them. -/
def sampleSerde : Serde where
  fromSlice bytes :=
    if bytes = emptyText then some (.object [])
    else if bytes = warmerText then some (.object [("temperature", .number (.float (3 / 10)))])
    else if bytes = degenerateText then some sampleDegenerate
    else if bytes = answerText then some sampleAnswer
    else none
  toVec value :=
    match value.get "temperature" with
    | some (.number (.float temperature)) =>
        some (if temperature = 3 / 10 then warmerText else emptyText)
    | _ => some emptyText

theorem sampleSerde_faithful : sampleSerde.Faithful := by
  have total : ∀ value, sampleSerde.toVec value = some warmerText ∨
      sampleSerde.toVec value = some emptyText := by
    intro value
    simp only [sampleSerde]
    split
    · split
      · exact .inl rfl
      · exact .inr rfl
    · exact .inr rfl
  constructor
  · intro value
    rcases total value with warmer | empty
    · rw [warmer]
      rfl
    · rw [empty]
      rfl
  · intro members bytes written
    rcases total (.object members) with warmer | empty
    · obtain rfl := Option.some.inj (warmer.symm.trans written)
      exact ⟨_, rfl⟩
    · obtain rfl := Option.some.inj (empty.symm.trans written)
      exact ⟨_, rfl⟩

def sampleChat : ClientRequest := { isChat := true, headers := [], body := emptyText }

/-- The degenerate turn, and the answer to the re-send. -/
def answeredOnRetry (_ : Nat) : Reply := .response ⟨200, [], .ok answerText⟩

end Proxy

end TinyLlb
