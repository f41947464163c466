import TinyLlb.Gateway.NonStreaming

/-! # Declared lengths

The handler from the request that it forwards to the response that it returns, with
every message that leaves the gateway on the way. A message that declares a length has
to carry that many bytes. The one that does not is a non-streaming response whose body
a retry has replaced: its headers are still those of the first response.

Requests that are refused before they are forwarded are answered without a declared
length and left out.
-/

namespace TinyLlb

namespace Proxy

/-- The part of `AppState` that the handler reads from the first attempt on. -/
structure AppState where
  retryPolicy : RetryPolicy
  transientRetry : TransientRetry
  requestTimeout : Option Duration
  serde : Serde
  arith : I64Arith

/-- What the handler meets: the replies to the first attempt, at 0, and to the
    re-forwards; whether collecting a body outlasts the timeout; the replies to the
    re-sends, from 1; and the steps of the stream task. -/
structure World where
  replies : Nat → Reply
  late : Bool
  resends : Nat → Reply
  stream : List TaskAction

inductive HandlerResult where
  | response (response : ClientResponse)
  /-- The body follows in chunks. -/
  | streamed (status : Nat) (headers : HeaderMap)
  | failed (error : ProxyError)
  | panicked

structure HandlerRun where
  requests : List BackendRequest
  result : HandlerResult

/-- The handler before it looks at the mode of the response. -/
inductive Dispatch where
  | dispatched (response : BackendResponse) (lifecycle : LifecycleGuard) (metrics : StreamMetrics)
  | answered (result : HandlerResult)

def isSse (headers : HeaderMap) : Bool :=
  match headers.get (ascii "content-type") with
  | some value => value.all HeaderMap.isVisibleAscii && (ascii "text/event-stream").isPrefixOf value
  | none => false

section

variable (state : AppState) (request : ClientRequest) (idSlot : Option Nat) (requestId : Bytes)
  (lifecycle : LifecycleGuard) (metrics : StreamMetrics)

/-- The call of `transient_retry`. -/
def reforwarding : Reforwarding :=
  { policy := state.transientRetry, fromSlice := state.serde.fromSlice
    headers := forwardedHeaders state.serde request idSlot
    body := forwardedBody state.serde request.body idSlot, requestId, lifecycle }

def TransientRetryRun.dispatch (run : TransientRetryRun) : Dispatch :=
  match run.outcome with
  | .success response lifecycle => .dispatched response lifecycle run.metrics
  | .finalResponse response _ => .answered (.response response)
  | .failed error _ => .answered (.failed error)

/-- From the first attempt to the response that is dispatched. -/
def forwardFirst (replies : Nat → Reply) : List BackendRequest × Dispatch :=
  let first := forwardedRequest state.serde request idSlot
  let run := transientRetry (reforwarding state request idSlot requestId lifecycle) replies metrics
  let reforwarded := (first :: run.sends.map Prod.snd, run.dispatch)
  match replies 0 with
  | .network e =>
      if isTransientNetworkError e = true ∧ state.transientRetry.maxAttempts > 0 then reforwarded
      else ([first], .answered (.failed (.network e)))
  | .timeout => ([first], .answered (.failed .timeout))
  | .response response =>
      if isErrorStatus response.status = true then
        match response.body with
        | .error e => ([first], .answered (.failed (.network e)))
        | .ok bytes =>
            if classifyLlamacppError state.serde.fromSlice bytes = .transient ∧
                state.transientRetry.maxAttempts > 0 then reforwarded
            else
              ([first], .answered (.response
                (buildErrorResponse requestId response.status response.headers bytes)))
      else ([first], .dispatched response lifecycle metrics)

/-- The configuration of the stream task. -/
def streamConfig : RetryConfig :=
  { policy := state.retryPolicy, transientPolicy := state.transientRetry
    requestTimeout := state.requestTimeout, fromSlice := state.serde.fromSlice
    toVec := state.serde.toVec
    forwardedBody := forwardedBody state.serde request.body idSlot, arith := state.arith }

/-- The request that an event of the stream task stands for. -/
def eventRequest : TaskEvent → Option BackendRequest
  | .retried body =>
      (state.serde.toVec body).map (retryRequest (forwardedHeaders state.serde request idSlot))
  | .reforwarded _ =>
      some (retryRequest (forwardedHeaders state.serde request idSlot)
        (forwardedBody state.serde request.body idSlot))
  | _ => none

/-- What the stream task sends to the backend. -/
def streamRequests (stream : List TaskAction) : List BackendRequest :=
  if state.retryPolicy.enabled = true ∧ state.retryPolicy.maxRetries > 0 ∧ request.isChat = true then
    (Machine.events ((retryStream (streamConfig state request idSlot) lifecycle).trace stream)).filterMap
      (eventRequest state request idSlot)
  else []

/-- The handler on the response that is dispatched, after these requests. -/
def respond (world : World) (requests : List BackendRequest) (response : BackendResponse) : HandlerRun :=
  if isSse response.headers = true ∨ bodyWantsStreaming state.serde request.body = true then
    ⟨requests ++ streamRequests state request idSlot lifecycle world.stream,
      .streamed response.status
        ((response.headers.filterResponseHeadersStreaming).insert (ascii "x-request-id") requestId)⟩
  else if state.requestTimeout.isSome = true ∧ world.late = true then ⟨requests, .failed .timeout⟩
  else
    match response.body with
    | .error e => ⟨requests, .failed (.network e)⟩
    | .ok body =>
        let call := exchange state.retryPolicy state.serde state.arith request idSlot requestId
        match nonStreaming call world.resends lifecycle metrics response.status response.headers
            body with
        | some run => ⟨requests ++ run.sends, .response run.response⟩
        -- A body that nothing can be assigned to panics before the first re-send.
        | none => ⟨requests, .panicked⟩

def proxyHandler (world : World) : HandlerRun :=
  let forward := forwardFirst state request idSlot requestId lifecycle metrics world.replies
  match forward.2 with
  | .answered result => ⟨forward.1, result⟩
  | .dispatched response lifecycle metrics =>
      respond state request idSlot requestId lifecycle metrics world forward.1 response

end

/-- Every message that declares a length carries that many bytes; a streamed response
    declares none, whatever it carries. -/
structure LengthsMatch (run : HandlerRun) : Prop where
  requests : ∀ request ∈ run.requests, request.headers.Declares request.body
  response : ∀ response, run.result = .response response → response.headers.Declares response.body
  streamed : ∀ status headers, run.result = .streamed status headers →
    ∀ body, headers.Declares body

/-- The first attempt failed in a way that is re-forwarded. -/
def refused (fromSlice : Bytes → Option Json) (reply : Reply) : Bool :=
  reply.outcome.isTransient fromSlice &&
    match reply with
    | .response response => isErrorStatus response.status
    | _ => true

/-- The response that is dispatched: that of the first attempt, or of the first
    re-forward that does not fail as the others before it. -/
def Dispatched (state : AppState) (replies : Nat → Reply) (response : BackendResponse) : Prop :=
  (replies 0 = .response response ∧ isErrorStatus response.status = false) ∨
    (refused state.serde.fromSlice (replies 0) = true ∧
      ∃ k, 1 ≤ k ∧ k ≤ state.transientRetry.maxAttempts ∧
      (∀ i, 1 ≤ i → i < k → (replies i).outcome.isTransient state.serde.fromSlice = true) ∧
        replies k = .response response ∧ isSuccessStatus response.status = true)

section

variable {state : AppState} {request : ClientRequest} {idSlot : Option Nat} {requestId : Bytes}
  {lifecycle : LifecycleGuard} {metrics : StreamMetrics} {replies : Nat → Reply}

theorem isErrorStatus_of_success {status : Nat} (success : isSuccessStatus status = true) :
    isErrorStatus status = false := by
  simp only [isSuccessStatus, decide_eq_true_eq] at success
  simp only [isErrorStatus, decide_eq_false_iff_not]
  omega

theorem not_success_of_error {status : Nat} (error : isErrorStatus status = true) :
    isSuccessStatus status = false := by
  cases success : isSuccessStatus status with
  | false => rfl
  | true => cases (isErrorStatus_of_success success).symm.trans error

theorem forwardFirst_cases (state : AppState) (request : ClientRequest) (idSlot : Option Nat)
    (requestId : Bytes) (lifecycle : LifecycleGuard) (metrics : StreamMetrics) (replies : Nat → Reply) :
    let first := forwardedRequest state.serde request idSlot
    let run := transientRetry (reforwarding state request idSlot requestId lifecycle) replies metrics
    let forward := forwardFirst state request idSlot requestId lifecycle metrics replies
    (refused state.serde.fromSlice (replies 0) = true ∧ 1 ≤ state.transientRetry.maxAttempts ∧
        forward = (first :: run.sends.map Prod.snd, run.dispatch)) ∨
      (¬ (refused state.serde.fromSlice (replies 0) = true ∧ 1 ≤ state.transientRetry.maxAttempts) ∧
        ((∃ error, (∀ response, replies 0 = .response response → isErrorStatus response.status = true) ∧
            forward = ([first], .answered (.failed error))) ∨
          (∃ response bytes, replies 0 = .response response ∧ isErrorStatus response.status = true ∧
            response.body = .ok bytes ∧ forward = ([first], .answered (.response
              (buildErrorResponse requestId response.status response.headers bytes)))) ∨
          ∃ response, replies 0 = .response response ∧ isErrorStatus response.status = false ∧
            forward = ([first], .dispatched response lifecycle metrics))) := by
  intro first run forward
  cases reply : replies 0 with
  | timeout =>
      refine .inr ⟨?_, .inl ⟨.timeout, ?_, ?_⟩⟩
      · simp [refused, Reply.outcome, SendOutcome.isTransient]
      · intro response other
        cases other
      · simp only [forward, forwardFirst, reply]
        rfl
  | network e =>
      by_cases again : isTransientNetworkError e = true ∧ state.transientRetry.maxAttempts > 0
      · refine .inl ⟨?_, again.2, ?_⟩
        · simp [refused, Reply.outcome, SendOutcome.isTransient, again.1]
        · simp only [forward, forwardFirst, reply, if_pos again]
          rfl
      · refine .inr ⟨?_, .inl ⟨.network e, ?_, ?_⟩⟩
        · rintro ⟨transient, budget⟩
          have sort : isTransientNetworkError e = true := by
            simpa [refused, Reply.outcome, SendOutcome.isTransient] using transient
          exact again ⟨sort, budget⟩
        · intro response other
          cases other
        · simp only [forward, forwardFirst, reply, if_neg again]
          rfl
  | response response =>
      cases error : isErrorStatus response.status with
      | false =>
          refine .inr ⟨fun both => by simp [refused, error] at both,
            .inr (.inr ⟨response, rfl, error, ?_⟩)⟩
          simp only [forward, forwardFirst, reply, error]
          rfl
      | true =>
          have failed := not_success_of_error error
          cases body : response.body with
          | error e =>
              refine .inr ⟨?_, .inl ⟨.network e, ?_, ?_⟩⟩
              · simp [refused, Reply.outcome, body, SendOutcome.isTransient]
              · intro other same
                rw [← Reply.response.inj same]
                exact error
              · simp only [forward, forwardFirst, reply, error, body]
                rfl
          | ok bytes =>
              have transient : refused state.serde.fromSlice (.response response) =
                  (classifyLlamacppError state.serde.fromSlice bytes == .transient) := by
                simp [refused, Reply.outcome, body, SendOutcome.isTransient, failed, error]
              rw [transient]
              by_cases again : classifyLlamacppError state.serde.fromSlice bytes = .transient ∧
                  state.transientRetry.maxAttempts > 0
              · refine .inl ⟨by simp [again.1], again.2, ?_⟩
                simp only [forward, forwardFirst, reply, error, body, if_pos again]
                rfl
              · refine .inr ⟨?_, .inr (.inl ⟨response, bytes, rfl, error, body, ?_⟩)⟩
                · rintro ⟨same, budget⟩
                  exact again ⟨by simpa using same, budget⟩
                · simp only [forward, forwardFirst, reply, error, body, if_neg again]
                  rfl

theorem ending_success {call : Reforwarding} {reply : Reply} {response : BackendResponse}
    {guard : LifecycleGuard} (ended : ending call reply = .success response guard) :
    reply = .response response ∧ isSuccessStatus response.status = true := by
  unfold ending at ended
  split at ended
  · split at ended
    · rename_i success
      cases ended
      exact ⟨rfl, success⟩
    · split at ended <;> cases ended
  · cases ended
  · cases ended

theorem ending_finalResponse {call : Reforwarding} {reply : Reply} {final : ClientResponse}
    {guard : LifecycleGuard} (ended : ending call reply = .finalResponse final guard) :
    ∃ response bytes, reply = .response response ∧ response.body = .ok bytes ∧
      final = buildErrorResponse call.requestId response.status response.headers bytes := by
  unfold ending at ended
  split at ended
  · split at ended
    · cases ended
    · split at ended
      · cases ended
      · rename_i bytes body
        cases ended
        exact ⟨_, bytes, rfl, body, rfl⟩
  · cases ended
  · cases ended

/-- The re-forwards dispatch the first response that does not fail as those before it. -/
theorem dispatch_transientRetry_iff (state : AppState) (request : ClientRequest) (idSlot : Option Nat)
    (requestId : Bytes) (lifecycle : LifecycleGuard) (metrics : StreamMetrics) (replies : Nat → Reply)
    (response : BackendResponse) (budget : 1 ≤ state.transientRetry.maxAttempts) :
    (∃ k, 1 ≤ k ∧ k ≤ state.transientRetry.maxAttempts ∧
        (∀ i, 1 ≤ i → i < k → (replies i).outcome.isTransient state.serde.fromSlice = true) ∧
          replies k = .response response ∧ isSuccessStatus response.status = true) ↔
      ∃ guard counters, (transientRetry (reforwarding state request idSlot requestId lifecycle) replies
        metrics).dispatch = .dispatched response guard counters := by
  unfold TransientRetryRun.dispatch
  rw [transientRetry_run _ _ _ budget]
  constructor
  · rintro ⟨k, least, most, before, reply, success⟩
    have settled : again (reforwarding state request idSlot requestId lifecycle) replies k = false := by
      cases body : response.body <;>
        simp [again, reply, Reply.outcome, SendOutcome.isTransient, success, body]
    have bound : k ≤ 1 + (state.transientRetry.maxAttempts - 1) := by omega
    have here : reforwards (reforwarding state request idSlot requestId lifecycle) replies = k :=
      Retry.stop_eq least bound before (.inl settled)
    simp [here, reply, ending, success]
  · rintro ⟨guard, counters, dispatched⟩
    simp only at dispatched
    split at dispatched
    · rename_i ended
      cases dispatched
      obtain ⟨reply, success⟩ := ending_success ended
      have last := Retry.stop_le (again (reforwarding state request idSlot requestId lifecycle) replies)
        (state.transientRetry.maxAttempts - 1) 1
      refine ⟨_, Retry.le_stop _ _ _, Nat.le_trans last (by omega), ?_, reply, success⟩
      intro i least less
      exact Retry.again_of_lt least less
    · cases dispatched
    · cases dispatched

theorem dispatched_iff (state : AppState) (request : ClientRequest) (idSlot : Option Nat)
    (requestId : Bytes) (lifecycle : LifecycleGuard) (metrics : StreamMetrics) (replies : Nat → Reply)
    (response : BackendResponse) :
    Dispatched state replies response ↔ ∃ guard counters,
      (forwardFirst state request idSlot requestId lifecycle metrics replies).2 =
        .dispatched response guard counters := by
  rcases forwardFirst_cases state request idSlot requestId lifecycle metrics replies with
    ⟨refusal, budget, forward⟩ | ⟨settled, first⟩
  · rw [forward, ← dispatch_transientRetry_iff state request idSlot requestId lifecycle metrics
      replies response budget]
    constructor
    · rintro (⟨reply, success⟩ | ⟨-, reforwarded⟩)
      · simp [reply, refused, success] at refusal
      · exact reforwarded
    · exact fun reforwarded => .inr ⟨refusal, reforwarded⟩
  · have once : Dispatched state replies response ↔
        replies 0 = .response response ∧ isErrorStatus response.status = false := by
      constructor
      · rintro (first | ⟨refusal, k, least, most, -⟩)
        · exact first
        · exact absurd ⟨refusal, Nat.le_trans least most⟩ settled
      · exact .inl
    rw [once]
    rcases first with ⟨error, failed, forward⟩ | ⟨other, bytes, reply, failed, -, forward⟩ |
      ⟨other, reply, success, forward⟩
    · rw [forward]
      constructor
      · rintro ⟨reply, success⟩
        cases success.symm.trans (failed response reply)
      · rintro ⟨guard, counters, dispatched⟩
        cases dispatched
    · rw [forward, reply]
      constructor
      · rintro ⟨same, success⟩
        cases same
        cases success.symm.trans failed
      · rintro ⟨guard, counters, dispatched⟩
        cases dispatched
    · rw [forward, reply]
      constructor
      · rintro ⟨same, -⟩
        cases same
        exact ⟨_, _, rfl⟩
      · rintro ⟨guard, counters, dispatched⟩
        cases dispatched
        exact ⟨rfl, success⟩

theorem retryRequest_declares (headers : HeaderMap) (body : Bytes) :
    (retryRequest headers body).headers.Declares (retryRequest headers body).body :=
  HeaderMap.declares_remove headers body

theorem buildErrorResponse_declares {headers : HeaderMap} {body : Bytes}
    (consistent : headers.Declares body) (requestId : Bytes) (status : Nat) :
    (buildErrorResponse requestId status headers body).headers.Declares
      (buildErrorResponse requestId status headers body).body :=
  (consistent.filter _).insert (by decide) requestId

theorem forwardFirst_requests (client : request.headers.Declares request.body) :
    ∀ sent ∈ (forwardFirst state request idSlot requestId lifecycle metrics replies).1,
      sent.headers.Declares sent.body := by
  have once : (forwardedRequest state.serde request idSlot).headers.Declares
      (forwardedRequest state.serde request idSlot).body := forwardedRequest_declares client idSlot
  have single : ∀ sent ∈ [forwardedRequest state.serde request idSlot],
      sent.headers.Declares sent.body := by
    intro sent member
    obtain rfl := List.mem_singleton.mp member
    exact once
  rcases forwardFirst_cases state request idSlot requestId lifecycle metrics replies with
    ⟨-, budget, forward⟩ | ⟨-, ⟨error, -, forward⟩ | ⟨other, bytes, -, -, -, forward⟩ |
      ⟨other, -, -, forward⟩⟩
  · rw [forward, transientRetry_run _ _ _ budget]
    intro sent member
    rcases List.mem_cons.mp member with rfl | later
    · exact once
    · simp only [sendsUpTo, List.map_map, List.mem_map, Function.comp_apply] at later
      obtain ⟨i, -, rfl⟩ := later
      exact retryRequest_declares _ _
  · rw [forward]
    exact single
  · rw [forward]
    exact single
  · rw [forward]
    exact single

theorem forwardFirst_answered {result : HandlerResult}
    (backend : ∀ i response bytes, replies i = .response response → response.body = .ok bytes →
      response.headers.Declares bytes)
    (answered : (forwardFirst state request idSlot requestId lifecycle metrics replies).2 =
      .answered result) :
    (∃ error, result = .failed error) ∨
      ∃ response, result = .response response ∧ response.headers.Declares response.body := by
  rcases forwardFirst_cases state request idSlot requestId lifecycle metrics replies with
    ⟨-, budget, forward⟩ | ⟨-, ⟨error, -, forward⟩ | ⟨other, bytes, reply, -, body, forward⟩ |
      ⟨other, -, -, forward⟩⟩
  · rw [forward, transientRetry_run _ _ _ budget] at answered
    unfold TransientRetryRun.dispatch at answered
    simp only at answered
    split at answered
    · cases answered
    · rename_i ended
      obtain ⟨response, bytes, reply, body, rfl⟩ := ending_finalResponse ended
      cases answered
      exact .inr ⟨_, rfl, buildErrorResponse_declares (backend _ response bytes reply body) _ _⟩
    · cases answered
      exact .inl ⟨_, rfl⟩
  · rw [forward] at answered
    cases answered
    exact .inl ⟨error, rfl⟩
  · rw [forward] at answered
    cases answered
    exact .inr ⟨_, rfl, buildErrorResponse_declares (backend 0 other bytes reply body) _ _⟩
  · rw [forward] at answered
    cases answered

theorem streamRequests_declare (stream : List TaskAction) :
    ∀ sent ∈ streamRequests state request idSlot lifecycle stream, sent.headers.Declares sent.body := by
  intro sent member
  unfold streamRequests at member
  split at member
  · obtain ⟨event, -, sends⟩ := List.mem_filterMap.mp member
    cases event with
    | retried body =>
        obtain ⟨bytes, -, rfl⟩ := Option.map_eq_some_iff.mp sends
        exact retryRequest_declares _ _
    | reforwarded delay =>
        obtain rfl := Option.some.inj sends
        exact retryRequest_declares _ _
    | frame | leftover | notice | abort => cases sends
  · cases member

end

/-- The j-th re-send is the last one that was answered with a body. -/
structure LastAnswer (call : Exchange) (replies : Nat → Reply) (first : Bytes) (j : Nat) : Prop where
  least : 1 ≤ j
  budget : j ≤ call.policy.maxRetries
  premature : ∀ i, i < j → isPremature call (received replies first i) = true
  readable : ∀ i, 1 ≤ i → i ≤ j → (replies i).readable.isSome = true
  last : j = call.policy.maxRetries ∨ isPremature call (received replies first j) = false ∨
    (replies (j + 1)).readable = none

section

variable {call : Exchange} {replies : Nat → Reply} {first : Bytes}

theorem resent_succ (replies : Nat → Reply) (i : Nat) :
    resent replies (i + 1) = (replies (i + 1)).readable.isSome := by
  simp [resent]

theorem received_of_failed {i : Nat} (failed : resent replies (i + 1) = false) :
    received replies first (i + 1) = received replies first i := by
  rw [resent_succ, Option.isSome_eq_false_iff, Option.isNone_iff_eq_none] at failed
  simp [received, failed]

theorem LastAnswer.received_stop {j : Nat} (answer : LastAnswer call replies first j) :
    received replies first (Retry.stop (goesOn call replies first) call.policy.maxRetries 0) =
      received replies first j := by
  have ready : ∀ i, i ≤ j → resent replies i = true := by
    intro i most
    cases i with
    | zero => rfl
    | succ i =>
        rw [resent_succ]
        exact answer.readable (i + 1) (by omega) most
  have before : ∀ i, 0 ≤ i → i < j → goesOn call replies first i = true := by
    intro i _ less
    simp [goesOn, answer.premature i less, ready i (Nat.le_of_lt less)]
  have budget := answer.budget
  rcases Nat.eq_or_lt_of_le budget with all | more
  · rw [Retry.stop_eq (Nat.zero_le j) (by omega) before (.inr (by omega))]
  · cases going : goesOn call replies first j with
    | false => rw [Retry.stop_eq (Nat.zero_le j) (by omega) before (.inl going)]
    | true =>
        have failed : resent replies (j + 1) = false := by
          rcases answer.last with all | settled | none_
          · omega
          · simp [goesOn, settled] at going
          · rw [resent_succ, none_]
            rfl
        have ends : goesOn call replies first (j + 1) = false := by simp [goesOn, failed]
        have upTo : ∀ i, 0 ≤ i → i < j + 1 → goesOn call replies first i = true := by
          intro i zero less
          rcases Nat.lt_succ_iff_lt_or_eq.mp less with earlier | rfl
          · exact before i zero earlier
          · exact going
        rw [Retry.stop_eq (Nat.zero_le (j + 1)) (by omega) upTo (.inl ends), received_of_failed failed]

theorem lastAnswer_of_received (replaced :
    received replies first (Retry.stop (goesOn call replies first) call.policy.maxRetries 0) ≠ first) :
    ∃ j, LastAnswer call replies first j := by
  have bound := Retry.stop_le (goesOn call replies first) call.policy.maxRetries 0
  have stops := Retry.stop_cases (goesOn call replies first) call.policy.maxRetries 0
  have before : ∀ i, i < Retry.stop (goesOn call replies first) call.policy.maxRetries 0 →
      goesOn call replies first i = true := fun i less => Retry.again_of_lt (Nat.zero_le i) less
  generalize Retry.stop (goesOn call replies first) call.policy.maxRetries 0 = n
    at replaced bound stops before
  have premature : ∀ i, i < n → isPremature call (received replies first i) = true := by
    intro i less
    have going := before i less
    simp only [goesOn, Bool.and_eq_true] at going
    exact going.1
  have ready : ∀ i, 1 ≤ i → i < n → (replies i).readable.isSome = true := by
    intro i least less
    obtain ⟨k, rfl⟩ : ∃ k, i = k + 1 := ⟨i - 1, by omega⟩
    have going := before (k + 1) less
    simp only [goesOn, Bool.and_eq_true, resent_succ] at going
    exact going.2
  cases n with
  | zero => exact absurd rfl replaced
  | succ m =>
      cases answered : resent replies (m + 1) with
      | true =>
          refine ⟨m + 1, by omega, by omega, premature, ?_, ?_⟩
          · intro i least most
            rcases Nat.eq_or_lt_of_le most with rfl | less
            · rw [← resent_succ]
              exact answered
            · exact ready i least less
          · rcases stops with settled | all
            · refine .inr (.inl ?_)
              simpa [goesOn, answered] using settled
            · exact .inl (by omega)
      | false =>
          rw [received_of_failed answered] at replaced
          have some_ : m ≠ 0 := by
            rintro rfl
            exact replaced rfl
          refine ⟨m, by omega, by omega, fun i less => premature i (by omega),
            fun i least most => ready i least (by omega), .inr (.inr ?_)⟩
          rwa [resent_succ, Option.isSome_eq_false_iff, Option.isNone_iff_eq_none] at answered

/-- The loop is entered, and its re-sends can be built. -/
def Resends (call : Exchange) : Prop :=
  call.policy.enabled = true ∧ 1 ≤ call.policy.maxRetries ∧ call.isChat = true ∧
    ∃ forwarded, call.serde.fromSlice call.forwardedBody = some forwarded ∧
      forwarded.isAssignable = true

theorem prematureRetry_idle {metrics : StreamMetrics}
    (idle : ¬ Resends call) :
    prematureRetry call replies first metrics = none ∨
      prematureRetry call replies first metrics = some ⟨0, first, [], metrics⟩ := by
  unfold prematureRetry
  split
  · rename_i gate
    split
    · rename_i forwarded read
      have panics : bumpTemperature forwarded 1 call.policy = none := by
        have fixed : forwarded.isAssignable = false := by
          cases assignable : forwarded.isAssignable with
          | false => rfl
          | true => exact absurd ⟨gate.1, gate.2.1, gate.2.2, forwarded, read, assignable⟩ idle
        rw [← Option.isNone_iff_eq_none, ← Option.isSome_eq_false_iff, ← fixed]
        exact Json.isSome_set _ _ _
      rw [prematureRetryFrom]
      split
      · left
        simp [panics]
      · right
        have open_ : ¬ (0 ≥ call.policy.maxRetries ∧ isPremature call first = true) :=
          fun both => absurd both.1 (Nat.not_le.mpr gate.2.1)
        simp only [Option.map_some, if_neg open_]
    · exact .inr rfl
  · exact .inr rfl

theorem nonStreaming_sends {lifecycle : LifecycleGuard} {metrics : StreamMetrics} {status : Nat}
    {responseHeaders : HeaderMap} {run : NonStreamingRun}
    (writes : ∀ value, (call.serde.toVec value).isSome = true)
    (ran : nonStreaming call replies lifecycle metrics status responseHeaders first = some run) :
    ∀ sent ∈ run.sends, sent.headers.Declares sent.body := by
  unfold nonStreaming at ran
  obtain ⟨loop, looped, rfl⟩ := Option.map_eq_some_iff.mp ran
  intro sent member
  by_cases gate : Resends call
  · obtain ⟨enabled, budget, chat, forwarded, read, assignable⟩ := gate
    obtain ⟨resends, list, run⟩ := prematureRetry_run replies first writes read assignable enabled
      budget chat metrics
    obtain rfl := Option.some.inj (run.symm.trans looped)
    have built := List.mem_map_of_mem (f := some) member
    rw [list] at built
    obtain ⟨i, -, resent⟩ := List.mem_map.mp built
    obtain ⟨bytes, -, rfl⟩ := Option.map_eq_some_iff.mp resent
    exact retryRequest_declares _ _
  · rcases prematureRetry_idle gate with none_ | idle
    · cases none_.symm.trans looped
    · obtain rfl := Option.some.inj (idle.symm.trans looped)
      cases member

theorem declares_iff_length {headers : HeaderMap} {body : Bytes} (consistent : headers.Declares first) :
    headers.Declares body ↔
      (headers.values HeaderMap.contentLength ≠ [] → body.length = first.length) := by
  constructor
  · intro declares some_
    obtain ⟨value, member⟩ := List.exists_mem_of_ne_nil _ some_
    exact Option.some.inj ((declares value member).symm.trans (consistent value member))
  · intro same value member
    rw [same (List.ne_nil_of_mem member)]
    exact consistent value member

theorem nonStreaming_of_loop {responseHeaders : HeaderMap} {loop : PrematureRetry}
    {metrics : StreamMetrics} (consistent : responseHeaders.Declares first)
    (looped : prematureRetry call replies first metrics = some loop) (lifecycle : LifecycleGuard)
    (status : Nat) :
    ∃ run, nonStreaming call replies lifecycle metrics status responseHeaders first = some run ∧
      (run.response.headers.Declares run.response.body ↔
        (responseHeaders.filterResponseHeaders.values HeaderMap.contentLength ≠ [] →
          loop.body.length = first.length)) := by
  unfold nonStreaming
  rw [looped]
  refine ⟨_, rfl, ?_⟩
  have filtered : (responseHeaders.filterResponseHeaders).Declares first := consistent.filter _
  rw [← declares_iff_length filtered]
  unfold HeaderMap.Declares
  rw [HeaderMap.values_insert_other (by decide), HeaderMap.values_insert_other (by decide)]

theorem nonStreaming_declares_iff (call : Exchange) (replies : Nat → Reply) {responseHeaders : HeaderMap}
    (writes : ∀ value, (call.serde.toVec value).isSome = true)
    (consistent : responseHeaders.Declares first) (lifecycle : LifecycleGuard)
    (metrics : StreamMetrics) (status : Nat) :
    (∀ run, nonStreaming call replies lifecycle metrics status responseHeaders first = some run →
        run.response.headers.Declares run.response.body) ↔
      (Resends call → responseHeaders.filterResponseHeaders.values HeaderMap.contentLength ≠ [] →
        ∀ j, LastAnswer call replies first j → (received replies first j).length = first.length) := by
  by_cases gate : Resends call
  · obtain ⟨enabled, budget, chat, forwarded, read, assignable⟩ := gate
    obtain ⟨resends, -, looped⟩ := prematureRetry_run replies first writes read assignable enabled
      budget chat metrics
    obtain ⟨run, ran, declares⟩ := nonStreaming_of_loop consistent looped lifecycle status
    constructor
    · intro all _ declared j answer
      have same := declares.mp (all run ran) declared
      rwa [answer.received_stop] at same
    · intro same other ran'
      obtain rfl := Option.some.inj (ran.symm.trans ran')
      apply declares.mpr
      intro declared
      by_cases replaced : received replies first
          (Retry.stop (goesOn call replies first) call.policy.maxRetries 0) = first
      · exact congrArg List.length replaced
      · obtain ⟨j, answer⟩ := lastAnswer_of_received replaced
        have equal := same ⟨enabled, budget, chat, forwarded, read, assignable⟩ declared j answer
        rwa [← answer.received_stop] at equal
  · constructor
    · intro _ entered
      exact absurd entered gate
    · intro _ run ran
      rcases prematureRetry_idle gate with none_ | idle
      · unfold nonStreaming at ran
        rw [none_] at ran
        cases ran
      · obtain ⟨other, ran', declares⟩ := nonStreaming_of_loop consistent idle lifecycle status
        obtain rfl := Option.some.inj (ran'.symm.trans ran)
        exact declares.mpr fun _ => rfl

end

/-- The inputs on which a dispatched response is returned with the length of another
    body: it is not streamed, declares its length and is degenerate, and the last body
    that its retries are answered with has another length. -/
structure StaleLength (state : AppState) (request : ClientRequest) (idSlot : Option Nat)
    (requestId : Bytes) (world : World) (response : BackendResponse) (first : Bytes) (j : Nat) :
    Prop where
  whole : ¬ (isSse response.headers = true ∨ bodyWantsStreaming state.serde request.body = true)
  inTime : ¬ (state.requestTimeout.isSome = true ∧ world.late = true)
  collected : response.body = .ok first
  resends : Resends (exchange state.retryPolicy state.serde state.arith request idSlot requestId)
  declared : response.headers.filterResponseHeaders.values HeaderMap.contentLength ≠ []
  answered : LastAnswer (exchange state.retryPolicy state.serde state.arith request idSlot requestId)
    world.resends first j
  differs : (received world.resends first j).length ≠ first.length

section

variable {state : AppState} {request : ClientRequest} {world : World} {idSlot : Option Nat}
  {requestId : Bytes}

theorem respond_whole_iff {requests : List BackendRequest} {response : BackendResponse} {first : Bytes}
    (writes : ∀ value, (state.serde.toVec value).isSome = true)
    (sent : ∀ sent ∈ requests, sent.headers.Declares sent.body)
    (streamed : ¬ (isSse response.headers = true ∨ bodyWantsStreaming state.serde request.body = true))
    (late : ¬ (state.requestTimeout.isSome = true ∧ world.late = true))
    (collected : response.body = .ok first) (lifecycle : LifecycleGuard) (metrics : StreamMetrics) :
    LengthsMatch (respond state request idSlot requestId lifecycle metrics world requests response) ↔
      ∀ run, nonStreaming
        (exchange state.retryPolicy state.serde state.arith request idSlot requestId) world.resends
        lifecycle metrics response.status response.headers first = some run →
          run.response.headers.Declares run.response.body := by
  unfold respond
  rw [if_neg streamed, if_neg late, collected]
  cases ran : nonStreaming
      (exchange state.retryPolicy state.serde state.arith request idSlot requestId) world.resends
      lifecycle metrics response.status response.headers first with
  | none => exact ⟨fun _ => nofun, fun _ => ⟨by simpa [ran] using sent, by simp [ran], by simp [ran]⟩⟩
  | some run =>
      have resent := nonStreaming_sends writes ran
      simp only [ran]
      constructor
      · rintro matched other same
        cases same
        exact matched.response _ rfl
      · intro all
        refine ⟨?_, ?_, nofun⟩
        · intro request member
          rcases List.mem_append.mp member with earlier | later
          · exact sent request earlier
          · exact resent request later
        · intro other same
          cases same
          exact all run rfl

theorem respond_lengths_match_iff {requests : List BackendRequest} {response : BackendResponse}
    (writes : ∀ value, (state.serde.toVec value).isSome = true)
    (sent : ∀ sent ∈ requests, sent.headers.Declares sent.body)
    (backend : ∀ bytes, response.body = .ok bytes → response.headers.Declares bytes)
    (lifecycle : LifecycleGuard) (metrics : StreamMetrics) :
    LengthsMatch (respond state request idSlot requestId lifecycle metrics world requests response) ↔
      ¬ ∃ first j, StaleLength state request idSlot requestId world response first j := by
  by_cases streamed : isSse response.headers = true ∨ bodyWantsStreaming state.serde request.body = true
  · refine ⟨fun _ ⟨_, _, stale⟩ => stale.whole streamed, fun _ => ?_⟩
    unfold respond
    rw [if_pos streamed]
    constructor
    · intro request member
      rcases List.mem_append.mp member with earlier | later
      · exact sent request earlier
      · exact streamRequests_declare _ request later
    · intro other result
      cases result
    · intro status headers result body
      cases result
      exact (HeaderMap.declares_remove _ body).insert (by decide) requestId
  by_cases late : state.requestTimeout.isSome = true ∧ world.late = true
  · refine ⟨fun _ ⟨_, _, stale⟩ => stale.inTime late, fun _ => ?_⟩
    unfold respond
    rw [if_neg streamed, if_pos late]
    exact ⟨sent, nofun, nofun⟩
  cases collected : response.body with
  | error e =>
      refine ⟨fun _ ⟨first, _, stale⟩ => ?_, fun _ => ?_⟩
      · cases collected.symm.trans stale.collected
      · unfold respond
        rw [if_neg streamed, if_neg late, collected]
        exact ⟨sent, nofun, nofun⟩
  | ok first =>
      have declares := nonStreaming_declares_iff
        (exchange state.retryPolicy state.serde state.arith request idSlot requestId) world.resends
        writes (backend first collected) lifecycle metrics response.status
      rw [respond_whole_iff writes sent streamed late collected, declares]
      constructor
      · rintro same ⟨other, j, stale⟩
        cases collected.symm.trans stale.collected
        exact stale.differs (same stale.resends stale.declared j stale.answered)
      · intro never resends declared j answer
        by_contra differs
        exact never ⟨first, j, streamed, late, collected, resends, declared, answer, differs⟩

/-- For every request and whatever the handler meets, with a consistent client and a
    consistent backend: every message that leaves declares its own length, unless a
    retry replaced a body whose length was declared by one of another length. -/
theorem lengths_match_iff (writes : ∀ value, (state.serde.toVec value).isSome = true)
    (client : request.headers.Declares request.body)
    (backend : ∀ i response bytes, world.replies i = .response response → response.body = .ok bytes →
      response.headers.Declares bytes)
    (idSlot : Option Nat) (requestId : Bytes) (lifecycle : LifecycleGuard) (metrics : StreamMetrics) :
    LengthsMatch (proxyHandler state request idSlot requestId lifecycle metrics world) ↔
      ¬ ∃ response first j, Dispatched state world.replies response ∧
        StaleLength state request idSlot requestId world response first j := by
  have sent : ∀ sent ∈ (forwardFirst state request idSlot requestId lifecycle metrics
      world.replies).1, sent.headers.Declares sent.body := forwardFirst_requests client
  have dispatch := dispatched_iff state request idSlot requestId lifecycle metrics world.replies
  unfold proxyHandler
  cases forward : (forwardFirst state request idSlot requestId lifecycle metrics world.replies).2 with
  | answered result =>
      simp only [forward]
      constructor
      · rintro - ⟨response, first, j, dispatched, -⟩
        obtain ⟨guard, counters, other⟩ := (dispatch response).mp dispatched
        cases forward.symm.trans other
      · intro _
        rcases forwardFirst_answered backend forward with ⟨error, rfl⟩ | ⟨other, rfl, declares⟩
        · exact ⟨sent, nofun, nofun⟩
        · refine ⟨sent, ?_, nofun⟩
          rintro response same
          cases same
          exact declares
  | dispatched response guard counters =>
      simp only [forward]
      have here : Dispatched state world.replies response := (dispatch response).mpr ⟨_, _, forward⟩
      have consistent : ∀ bytes, response.body = .ok bytes → response.headers.Declares bytes := by
        intro bytes body
        rcases here with ⟨reply, -⟩ | ⟨-, k, -, -, -, reply, -⟩
        · exact backend 0 response bytes reply body
        · exact backend k response bytes reply body
      rw [respond_lengths_match_iff writes sent consistent guard counters]
      apply not_congr
      constructor
      · rintro ⟨first, j, stale⟩
        exact ⟨response, first, j, here, stale⟩
      · rintro ⟨other, first, j, dispatched, stale⟩
        obtain ⟨_, _, same⟩ := (dispatch other).mp dispatched
        cases forward.symm.trans same
        exact ⟨first, j, stale⟩

end

def sampleState : AppState :=
  { retryPolicy := Config.retrying.retryPolicy, transientRetry := .default, requestTimeout := none
    serde := sampleSerde, arith := .wrapping }

/-- The degenerate turn with its length, and these replies to the re-sends. -/
def degenerateFirst (resends : Nat → Reply) : World :=
  { replies := fun _ => .response
      ⟨200, [(HeaderMap.contentLength, ascii (toString degenerateText.length))],
      .ok degenerateText⟩
    late := false, resends, stream := [] }

def unreachableBackend (_ : Nat) : Reply := .network ⟨true, []⟩

theorem degenerateFirst_consistent (resends : Nat → Reply) :
    ∀ i response bytes, (degenerateFirst resends).replies i = .response response →
      response.body = .ok bytes → response.headers.Declares bytes := by
  intro i response bytes reply body
  cases reply
  cases body
  decide +kernel

theorem lengths_match_iff_unanswered :
    LengthsMatch (proxyHandler sampleState sampleChat none (ascii "id") (.new ⟨"f"⟩ 100)
      ⟨0, 0, 0, 0, 0, 0⟩ (degenerateFirst unreachableBackend)) := by
  have client : sampleChat.headers.Declares sampleChat.body := by decide +kernel
  apply (lengths_match_iff sampleSerde_faithful.writes client
    (degenerateFirst_consistent unreachableBackend) none (ascii "id") (.new ⟨"f"⟩ 100)
    ⟨0, 0, 0, 0, 0, 0⟩).mpr
  rintro ⟨response, first, j, -, stale⟩
  cases stale.answered.readable 1 (Nat.le_refl 1) stale.answered.least

/-- The client gets the answer to the retry with the length of the degenerate turn. -/
theorem retried_length_stale :
    ¬ LengthsMatch (proxyHandler sampleState sampleChat none (ascii "id") (.new ⟨"f"⟩ 100)
      ⟨0, 0, 0, 0, 0, 0⟩ (degenerateFirst answeredOnRetry)) ∧
      sampleChat.headers.Declares sampleChat.body ∧
        ∀ i response bytes, (degenerateFirst answeredOnRetry).replies i = .response response →
          response.body = .ok bytes → response.headers.Declares bytes := by
  refine ⟨?_, by decide +kernel, degenerateFirst_consistent answeredOnRetry⟩
  intro matched
  have stale : (match (proxyHandler sampleState sampleChat none (ascii "id") (.new ⟨"f"⟩ 100)
      ⟨0, 0, 0, 0, 0, 0⟩ (degenerateFirst answeredOnRetry)).result with
      | .response response => decide (response.headers.Declares response.body)
      | _ => true) = false := by decide +kernel
  split at stale
  · rename_i response result
    exact of_decide_eq_false stale (matched.response response result)
  · cases stale

end Proxy

end TinyLlb
