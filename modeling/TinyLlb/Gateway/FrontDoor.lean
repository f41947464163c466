import TinyLlb.Gateway.ForwardedBody
import TinyLlb.Gateway.Lifecycle
import TinyLlb.Provenance
import TinyLlb.Runtime.DepthGauge
import TinyLlb.SlotAllocator

/-! # The front door

What the handler does with a request before it queues it: the body is bounded, the
session it belongs to is identified, and an inference request of a named session gets a
slot of the backend, which is written into the body that is forwarded. The reaper takes
slots back beside it, and the poller publishes how many there are.
-/

namespace TinyLlb

namespace HeaderMap

/-- `headers.get(name)` and `to_str`. -/
def text (headers : HeaderMap) (name : Bytes) : Option Bytes :=
  (headers.get name).filter fun value => value.all isVisibleAscii

end HeaderMap

/-- A flow named by a header value. -/
def FlowId.ofAscii (value : Bytes) : FlowId :=
  ⟨String.ofList (value.map fun b => Char.ofNat b.toNat)⟩

namespace Identify

def flowIdHeader : Bytes := ascii "x-llm-flow-id"

def sessionHeaders : List Bytes :=
  [ascii "x-claude-code-session-id", ascii "x-session-id", ascii "x-session-affinity",
    ascii "x-client-request-id", ascii "session_id"]

/-- The value is taken as it is, blanks included. -/
def extractFlowIdFromHeader (headers : HeaderMap) : Option FlowId :=
  ((headers.text flowIdHeader).filter fun value => value ≠ []).map FlowId.ofAscii

def extractFlowIdFromSessionHeaders (headers : HeaderMap) : Option FlowId :=
  sessionHeaders.findSome? fun name =>
    ((headers.text name).filter fun value => trim value ≠ []).map fun value =>
      FlowId.ofAscii (trim value)

variable (serde : Serde)

def extractFlowIdFromBody (body : Bytes) : Option FlowId :=
  if body.isEmpty then none
  else do
    let value ← serde.fromSlice body
    let metadata ← value.get "metadata"
    let flowId ← (metadata.get "flow_id").bind Json.asStr
    if flowId = "" then none else some ⟨flowId⟩

def generateEphemeralId (uuid : String) : FlowId := ⟨"ephemeral-" ++ uuid⟩

structure ResolvedFlow where
  flowId : FlowId
  priorityOverride : Option PriorityClass
  unsetOverride : Bool

def resolve (uuid : String) (headers : HeaderMap) (body : Bytes) : ResolvedFlow :=
  let flowId := ((extractFlowIdFromHeader headers).or (extractFlowIdFromSessionHeaders headers)).or
    (extractFlowIdFromBody serde body)
  let priority := resolvePriority (headers.get (ascii "x-llm-priority"))
  ⟨flowId.getD (generateEphemeralId uuid), priority.1, priority.2⟩

end Identify

namespace F64

/-- An integer as a float: the nearest one, and of two the even one. -/
def ofNat (n : Nat) : F64 :=
  let unit := 2 ^ (n.log2 - 52)
  let below := n / unit
  let rest := n % unit
  .fin (unit * (if 2 * rest < unit ∨ 2 * rest = unit ∧ below % 2 = 0 then below else below + 1 : Nat))

def neg : F64 → F64
  | .fin value => .fin (-value)
  | .posInf => .negInf
  | .negInf => .posInf
  | .nan => .nan

/-- `as_f64`. -/
def ofNumber : JsonNumber → F64
  | .posInt value => ofNat value
  | .negInt value => (ofNat value.natAbs).neg
  | .float value => .fin value

end F64

namespace Proxy

variable (serde : Serde)

/-- What `extract_max_tokens` is given. -/
def requestBody (body : Bytes) : RequestBody :=
  if body.isEmpty then .empty
  else
    match serde.fromSlice body with
    | some value =>
        .json ((value.get "max_tokens").map fun
          | .number value => .number (F64.ofNumber value)
          | _ => .other)
    | none => .unparseable

def isTurnBoundaryRequest (body : Bytes) : Bool :=
  if body.isEmpty then true
  else
    match serde.fromSlice body with
    | none => true
    | some value =>
        match ((value.get "messages").bind Json.asArray).bind List.getLast? with
        | some message =>
            let role := ((message.get "role").bind Json.asStr).getD ""
            role != "tool" && role != "assistant"
        | none => true

def isInferenceRequest (method path : Bytes) : Bool :=
  method == ascii "POST" &&
    (path == ascii "/v1/chat/completions" || path == ascii "/v1/completions")

/-- 32 MiB. -/
def maxBodySize : Nat := 32 * 1024 * 1024

/-- `parse::<u64>`: a plus sign is allowed. -/
def parseU64 (b : Bytes) : Option Nat :=
  let value : Option Nat :=
    match b with
    | 43 :: digits => parseNat digits
    | digits => parseNat digits
  value.filter fun n => n < 18446744073709551616

/-- The body size guard: a length that cannot be read passes. -/
def declaresTooMuch (headers : HeaderMap) : Bool :=
  ((headers.text HeaderMap.contentLength).bind parseU64).any fun size => decide (maxBodySize < size)

/-- How collecting a body under the limit fails. -/
inductive CollectError where
  | lengthLimit
  | other (message : String)

/-- What a request is turned down with at the front door. -/
inductive FrontError where
  | tooLarge
  | internal (message : String)
  deriving DecidableEq

end Proxy

/-- What the handler relies on: a JSON reader and writer, and URLs that can be joined
    and given a query. -/
structure DoorEnv where
  serde : Serde
  join : Bytes → Except String Bytes
  setQuery : Bytes → Bytes → Bytes

/-- A request as it comes in. -/
structure Incoming where
  method : Bytes
  path : Bytes
  query : Option Bytes
  headers : HeaderMap
  /-- What collecting the body under the limit gives. -/
  collected : Except Proxy.CollectError Bytes
  /-- The UUID at hand for a request without a session. -/
  uuid : String

/-- What the handler has found out when it hands a request on. -/
structure Handover where
  flowId : FlowId
  isInference : Bool
  idSlot : Option UInt32
  wantsStreaming : Bool
  workUnit : F64
  isTurnBoundary : Bool
  priorityOverride : Option PriorityClass
  unsetOverride : Bool
  backendUrl : Bytes
  forwarded : BackendRequest

structure FrontDoor where
  slots : SlotAllocator
  /-- The slot count of the latest snapshot. -/
  slotCount : Option UInt32

inductive DoorAction where
  | request (incoming : Incoming)
  | publish (slotCount : Option UInt32)
  | release (flow : FlowId)
  | sweepMissing (registered : FlowId → Bool)

namespace DoorEnv

variable (env : DoorEnv)

def buildBackendUrl (path : Bytes) (query : Option Bytes) : Except Proxy.FrontError Bytes :=
  match env.join path with
  | .ok url => .ok (query.elim url (env.setQuery url))
  | .error e =>
      .error (.internal ("failed to build backend URL for \x27" ++ (FlowId.ofAscii path).name ++
        "\x27: " ++ e))

/-- The session of a request, once its body is there. -/
def resolve (incoming : Incoming) (body : Bytes) : Identify.ResolvedFlow :=
  Identify.resolve env.serde incoming.uuid incoming.headers body

end DoorEnv

namespace Incoming

def isInference (incoming : Incoming) : Bool :=
  Proxy.isInferenceRequest incoming.method incoming.path

/-- The body, where the size guards let it in. -/
def accept (incoming : Incoming) : Except Proxy.FrontError Bytes :=
  if Proxy.declaresTooMuch incoming.headers then .error .tooLarge
  else
    match incoming.collected with
    | .error .lengthLimit => .error .tooLarge
    | .error (.other e) => .error (.internal ("failed to read request body: " ++ e))
    | .ok body => if Proxy.maxBodySize ≤ body.length then .error .tooLarge else .ok body

/-- The first attempt carries the headers and the body. -/
def client (incoming : Incoming) (body : Bytes) : ClientRequest :=
  ⟨incoming.path == ascii "/v1/chat/completions", incoming.headers, body⟩

end Incoming

namespace FrontDoor

def new : FrontDoor := ⟨.new, none⟩

/-- A named inference request is pinned when the slot count is known. Reading the count
    and assigning the slot are one step. -/
def pin (door : FrontDoor) (isInference : Bool) (f : FlowId) : Option UInt32 × FrontDoor :=
  match isInference, f.isEphemeral, door.slotCount with
  | true, false, some n =>
      if 1 ≤ n then (some (door.slots.assign f n).1, { door with slots := (door.slots.assign f n).2 })
      else (none, door)
  | _, _, _ => (none, door)

/-- `proxy_handler` up to the point where requests part: metadata goes straight to the
    backend, inference to the scheduler. -/
def receive (env : DoorEnv) (door : FrontDoor) (incoming : Incoming) :
    Except Proxy.FrontError Handover × FrontDoor :=
  match incoming.accept with
  | .error e => (.error e, door)
  | .ok body =>
      let resolved := env.resolve incoming body
      let pinned := door.pin incoming.isInference resolved.flowId
      match env.buildBackendUrl incoming.path incoming.query with
      -- The slot stays with the flow.
      | .error e => (.error e, pinned.2)
      | .ok backendUrl =>
          (.ok
            { flowId := resolved.flowId
              isInference := incoming.isInference
              idSlot := pinned.1
              wantsStreaming := Proxy.bodyWantsStreaming env.serde body
              workUnit := extractMaxTokens (Proxy.requestBody env.serde body)
              isTurnBoundary := Proxy.isTurnBoundaryRequest env.serde body
              priorityOverride := resolved.priorityOverride
              unsetOverride := resolved.unsetOverride
              backendUrl
              forwarded := Proxy.forwardedRequest env.serde (incoming.client body)
                (pinned.1.map UInt32.toNat) }, pinned.2)

end FrontDoor

/-- A request is answered with an error or handed on. -/
abbrev DoorEvent := Except Proxy.FrontError Handover

def nextDoor (env : DoorEnv) (door : FrontDoor) :
    DoorAction → Option (FrontDoor × Option DoorEvent)
  | .request incoming =>
      some ((door.receive env incoming).2, some (door.receive env incoming).1)
  | .publish slotCount => some ({ door with slotCount }, none)
  | .release f => some ({ door with slots := door.slots.release f }, none)
  | .sweepMissing registered =>
      some ({ door with slots := (door.slots.sweepMissing registered).2 }, none)

def frontDoor (env : DoorEnv) : Machine FrontDoor DoorAction DoorEvent :=
  { start := FrontDoor.new, next := nextDoor env }

theorem Incoming.accept_eq_ok {incoming : Incoming} {body : Bytes}
    (accepted : incoming.accept = .ok body) :
    incoming.collected = .ok body ∧ body.length < Proxy.maxBodySize := by
  unfold Incoming.accept at accepted
  split at accepted
  · cases accepted
  · split at accepted
    · cases accepted
    · cases accepted
    · rename_i collected
      split at accepted
      · cases accepted
      · rename_i short
        obtain rfl := Except.ok.inj accepted
        exact ⟨collected, not_le.mp short⟩

/-- The forwarded body, where it is an object, carries the slot. -/
def Handover.Carries (h : Handover) (serde : Serde) (slot : UInt32) : Prop :=
  ∀ members, serde.meaningOf h.forwarded.body = some (.object members) →
    members "id_slot" = some (.number (.posInt slot.toNat))

namespace FrontDoor

variable {env : DoorEnv} {door : FrontDoor} {isInference : Bool} {f g : FlowId}

/-- Who gets a slot. -/
def Pinnable (door : FrontDoor) (isInference : Bool) (f : FlowId) (n : UInt32) : Prop :=
  isInference = true ∧ f.isEphemeral = false ∧ door.slotCount = some n ∧ 1 ≤ n

/-- A request gets a slot and everything else stays, or nothing happens to it. -/
theorem pin_cases (door : FrontDoor) (isInference : Bool) (f : FlowId) :
    (∃ n, door.Pinnable isInference f n ∧ door.pin isInference f =
        (some (door.slots.assign f n).1, { door with slots := (door.slots.assign f n).2 })) ∨
      (∀ n, ¬ door.Pinnable isInference f n) ∧ door.pin isInference f = (none, door) := by
  unfold pin
  split
  · rename_i n named count
    by_cases some_ : 1 ≤ n
    · left
      exact ⟨n, ⟨rfl, named, count, some_⟩, if_pos some_⟩
    · right
      refine ⟨?_, if_neg some_⟩
      rintro m ⟨-, -, count', positive⟩
      obtain rfl := Option.some.inj (count.symm.trans count')
      exact some_ positive
  · rename_i other
    right
    refine ⟨?_, rfl⟩
    rintro n ⟨inference, named, count, -⟩
    exact other n inference named count

theorem lookup_pin (door : FrontDoor) (isInference : Bool) (f : FlowId) {g : FlowId}
    (other : g ≠ f) : (door.pin isInference f).2.slots.assignments.lookup g =
      door.slots.assignments.lookup g := by
  rcases door.pin_cases isInference f with ⟨n, -, pinned⟩ | ⟨-, pinned⟩
  · rw [pinned]
    exact (SlotAllocator.lookup_assign ..).trans (if_neg other)
  · rw [pinned]

/-- What `receive` does: a request is turned down before it is looked at, or its flow is
    pinned and the request is handed on unless it has no URL. -/
theorem receive_cases (env : DoorEnv) (door : FrontDoor) (incoming : Incoming) :
    (∃ e, incoming.accept = .error e ∧ door.receive env incoming = (.error e, door)) ∨
      ∃ body, incoming.accept = .ok body ∧
        (door.receive env incoming).2 =
          (door.pin incoming.isInference (env.resolve incoming body).flowId).2 := by
  unfold receive
  cases accepted : incoming.accept with
  | error e => exact .inl ⟨e, rfl, rfl⟩
  | ok body =>
      refine .inr ⟨body, rfl, ?_⟩
      simp only
      split <;> rfl

/-- A request that is handed on, with the body it had and the slot its flow has. -/
structure Handled (env : DoorEnv) (door door' : FrontDoor) (incoming : Incoming) (h : Handover)
    (body : Bytes) : Prop where
  accepted : incoming.accept = .ok body
  collected : incoming.collected = .ok body
  short : body.length < Proxy.maxBodySize
  flow : h.flowId = (env.resolve incoming body).flowId
  inference : h.isInference = incoming.isInference
  pinned : ∀ slot, h.idSlot = some slot ↔
    (∃ n, door.Pinnable h.isInference h.flowId n ∧ slot < n) ∧
      door'.slots.assignments.lookup h.flowId = some slot
  kept : ∀ n slot, door.slots.assignments.lookup h.flowId = some slot →
    door.slotCount = some n → slot < n → door'.slots = door.slots
  forwarded : h.forwarded =
    Proxy.forwardedRequest env.serde (incoming.client body) (h.idSlot.map UInt32.toNat)

theorem handled {incoming : Incoming} {h : Handover}
    (received : (door.receive env incoming).1 = .ok h) :
    ∃ body, Handled env door (door.receive env incoming).2 incoming h body := by
  unfold receive at received ⊢
  cases accepted : incoming.accept with
  | error e =>
      rw [accepted] at received
      cases received
  | ok body =>
      simp only [accepted] at received ⊢
      refine ⟨body, ?_⟩
      obtain ⟨collected, short⟩ := Incoming.accept_eq_ok accepted
      cases url : env.buildBackendUrl incoming.path incoming.query with
      | error e => simp [url] at received
      | ok backendUrl =>
          simp only [url, Except.ok.injEq] at received ⊢
          subst received
          rcases door.pin_cases incoming.isInference (env.resolve incoming body).flowId with
            ⟨n, pinnable, pinned⟩ | ⟨not, pinned⟩
          · have count := pinnable.2.2.1
            have positive := pinnable.2.2.2
            have some_ : n ≠ 0 := by
              rintro rfl
              exact absurd positive (by decide)
            refine ⟨accepted, collected, short, rfl, rfl, ?_, ?_, rfl⟩
            · intro slot
              simp only [pinned, SlotAllocator.lookup_assign, if_true, Option.some.injEq]
              constructor
              · rintro rfl
                exact ⟨⟨n, pinnable, SlotAllocator.assign_lt _ _ some_⟩, rfl⟩
              · exact And.right
            · intro m slot found count' less
              obtain rfl := Option.some.inj (count.symm.trans count')
              rw [pinned]
              exact congrArg Prod.snd (SlotAllocator.assign_of_lt found less)
          · refine ⟨accepted, collected, short, rfl, rfl, ?_, ?_, rfl⟩
            · intro slot
              simp only [pinned, reduceCtorEq, false_iff]
              rintro ⟨⟨n, pinnable, -⟩, -⟩
              exact not n pinnable
            · intro _ _ _ _ _
              rw [pinned]

theorem Handled.carries {door' : FrontDoor} {incoming : Incoming} {h : Handover} {body : Bytes}
    {slot : UInt32} (inverse : env.serde.Inverse) (handled : Handled env door door' incoming h body)
    (pinned : h.idSlot = some slot) : h.Carries env.serde slot := by
  intro members read
  rw [handled.forwarded, pinned] at read
  change env.serde.meaningOf (Proxy.forwardedBody env.serde body (some slot.toNat)) = _ at read
  by_cases object : ∃ received, env.serde.meaningOf body = some (.object received)
  · obtain ⟨received, was⟩ := object
    rw [Proxy.meaningOf_forwardedBody inverse was, Option.some.injEq,
      JsonValue.object.injEq] at read
    rw [← read]
    simp [Proxy.slotted]
  · have other : ∀ members, env.serde.meaningOf body ≠ some (.object members) :=
      fun members read => object ⟨members, read⟩
    rw [Proxy.forwardedBody_of_other other] at read
    exact absurd read (other members)

end FrontDoor

/-- The flow and the slot of a request that is handed on with a slot. -/
def pinned (tr : Transition FrontDoor DoorAction DoorEvent) : Option (FlowId × UInt32) :=
  match tr.action, tr.event with
  | .request _, some (.ok h) => h.idSlot.map fun slot => (h.flowId, slot)
  | _, _ => none

/-- A step that may take a flow off its slot: the reaper lets go of it, or a request of the
    flow finds that there are not that many slots any more. -/
def Unpins (env : DoorEnv) (tr : Transition FrontDoor DoorAction DoorEvent) (f : FlowId)
    (slot : UInt32) : Prop :=
  match tr.action with
  | .request incoming =>
      (∃ body, incoming.accept = .ok body ∧ (env.resolve incoming body).flowId = f) ∧
        ∃ n, tr.pre.slotCount = some n ∧ 1 ≤ n ∧ n ≤ slot
  | .publish _ => False
  | .release g => g = f
  | .sweepMissing registered => registered f = false

section

variable {env : DoorEnv} {door door' : FrontDoor} {action : DoorAction}
  {event : Option DoorEvent} {f g : FlowId} {slot slot' : UInt32}

theorem lookup_next (next : nextDoor env door action = some (door', event))
    (found : door.slots.assignments.lookup f = some slot)
    (kept : ¬ Unpins env ⟨door, action, event, door'⟩ f slot) :
    door'.slots.assignments.lookup f = some slot := by
  cases action with
  | request incoming =>
      obtain ⟨rfl, -⟩ := Prod.mk.inj (Option.some.inj next)
      rcases door.receive_cases env incoming with ⟨e, -, same⟩ | ⟨body, accepted, pinned⟩
      · rw [same]
        exact found
      · rw [pinned]
        by_cases mine : f = (env.resolve incoming body).flowId
        · rcases door.pin_cases incoming.isInference (env.resolve incoming body).flowId with
            ⟨n, ⟨-, -, count, positive⟩, pinned⟩ | ⟨-, pinned⟩
          · have less : slot < n := by
              by_contra stale
              exact kept ⟨⟨body, accepted, mine.symm⟩, n, count, positive, UInt32.not_lt.mp stale⟩
            subst f
            rw [pinned, SlotAllocator.assign_of_lt found less]
            exact found
          · rw [pinned]
            exact found
        · rw [door.lookup_pin _ _ mine]
          exact found
  | publish slotCount =>
      obtain ⟨rfl, -⟩ := Prod.mk.inj (Option.some.inj next)
      exact found
  | release g =>
      obtain ⟨rfl, -⟩ := Prod.mk.inj (Option.some.inj next)
      have other : f ≠ g := fun same => kept same.symm
      exact (SlotAllocator.lookup_release ..).trans ((if_neg other).trans found)
  | sweepMissing registered =>
      obtain ⟨rfl, -⟩ := Prod.mk.inj (Option.some.inj next)
      have there : registered f = true := by simpa [Unpins] using kept
      exact (SlotAllocator.lookup_sweepMissing _ there).trans found

theorem named_next (next : nextDoor env door action = some (door', event))
    (named : ∀ f slot, door.slots.assignments.lookup f = some slot → f.isEphemeral = false)
    (found : door'.slots.assignments.lookup f = some slot) : f.isEphemeral = false := by
  cases action with
  | request incoming =>
      obtain ⟨rfl, -⟩ := Prod.mk.inj (Option.some.inj next)
      rcases door.receive_cases env incoming with ⟨e, -, same⟩ | ⟨body, -, pinned⟩
      · rw [same] at found
        exact named f slot found
      · rw [pinned] at found
        by_cases mine : f = (env.resolve incoming body).flowId
        · rcases door.pin_cases incoming.isInference (env.resolve incoming body).flowId with
            ⟨n, pinnable, -⟩ | ⟨-, same⟩
          · rw [mine]
            exact pinnable.2.1
          · rw [same] at found
            exact named f slot found
        · rw [door.lookup_pin _ _ mine] at found
          exact named f slot found
  | publish slotCount =>
      obtain ⟨rfl, -⟩ := Prod.mk.inj (Option.some.inj next)
      exact named f slot found
  | release g =>
      obtain ⟨rfl, -⟩ := Prod.mk.inj (Option.some.inj next)
      have before := (SlotAllocator.lookup_release ..).symm.trans found
      split at before
      · cases before
      · exact named f slot before
  | sweepMissing registered =>
      obtain ⟨rfl, -⟩ := Prod.mk.inj (Option.some.inj next)
      exact named f slot (SlotAllocator.lookup_of_sweepMissing found)

theorem lookup_of_pinned {tr : Transition FrontDoor DoorAction DoorEvent}
    (step : nextDoor env tr.pre tr.action = some (tr.post, tr.event))
    (pins : pinned tr = some (f, slot)) : tr.post.slots.assignments.lookup f = some slot := by
  unfold pinned at pins
  split at pins
  · rename_i incoming h action event
    obtain ⟨slot, idSlot, same⟩ := Option.map_eq_some_iff.mp pins
    obtain ⟨rfl, rfl⟩ := Prod.mk.inj same
    rw [action] at step
    obtain ⟨post, shown⟩ := Prod.mk.inj (Option.some.inj step)
    rw [event, Option.some.injEq] at shown
    obtain ⟨body, handled⟩ := FrontDoor.handled shown
    rw [← post]
    exact ((handled.pinned slot).mp idSlot).2
  · cases pins

/-- Between two steps of a run a flow keeps its slot, unless a step takes it away. -/
theorem lookup_exec {ts} (run : (frontDoor env).Exec door ts door')
    (found : door.slots.assignments.lookup f = some slot)
    (kept : ∀ tr ∈ ts, ¬ Unpins env tr f slot) : door'.slots.assignments.lookup f = some slot :=
  run.invariant_within (I := fun door => door.slots.assignments.lookup f = some slot) kept found
    fun found kept next => lookup_next next found kept

theorem lookup_of_later {before first middle second after}
    (run : (frontDoor env).Exec door (before ++ first :: middle ++ second :: after) door')
    (here : pinned first = some (f, slot))
    (kept : ∀ tr ∈ middle ++ [second], ¬ Unpins env tr f slot) :
    second.post.slots.assignments.lookup f = some slot ∧
      nextDoor env second.pre second.action = some (second.post, second.event) := by
  rw [List.append_assoc] at run
  obtain ⟨-, step, rest⟩ := run.split_at
  obtain ⟨between, step', -⟩ := rest.split_at
  have held := lookup_exec between (lookup_of_pinned step here)
    fun tr member => kept tr (List.mem_append_left _ member)
  exact ⟨lookup_next step' held (kept second (by simp)), step'⟩

/-- Whatever else goes on, a session keeps its slot from request to request: until the
    reaper lets go of it, or the backend has fewer slots, every request that is handed
    on for it carries the same `id_slot`. What is turned down for its size changes
    nothing, and a request without a session never has a slot. -/
theorem sessions_keep_their_slots (env : DoorEnv) (inverse : env.serde.Inverse) {ts door}
    (run : (frontDoor env).Exec FrontDoor.new ts door) :
    (∀ tr ∈ ts, ∀ incoming, tr.action = .request incoming →
      (∀ e, incoming.accept = .error e → tr.event = some (.error e) ∧ tr.post = tr.pre) ∧
      ∀ h, tr.event = some (.ok h) →
        ∃ body, FrontDoor.Handled env tr.pre tr.post incoming h body ∧
          ∀ slot, h.idSlot = some slot → h.Carries env.serde slot) ∧
    (∀ before first middle second after, ts = before ++ first :: middle ++ second :: after →
      ∀ f slot slot', pinned first = some (f, slot) → pinned second = some (f, slot') →
        (∀ tr ∈ middle ++ [second], ¬ Unpins env tr f slot) → slot' = slot) ∧
    ∀ f slot, door.slots.assignments.lookup f = some slot → f.isEphemeral = false := by
  refine ⟨?_, ?_, ?_⟩
  · intro tr member incoming action
    have step := run.step_of_mem member
    rw [action] at step
    obtain ⟨post, shown⟩ := Prod.mk.inj (Option.some.inj step)
    constructor
    · intro e refused
      rcases tr.pre.receive_cases env incoming with ⟨e', refused', same⟩ | ⟨body, accepted, -⟩
      · obtain rfl := Except.error.inj (refused.symm.trans refused')
        rw [← shown, ← post, same]
        exact ⟨rfl, rfl⟩
      · rw [accepted] at refused
        cases refused
    · intro h event
      rw [event, Option.some.injEq] at shown
      obtain ⟨body, handled⟩ := FrontDoor.handled shown
      rw [post] at handled
      exact ⟨body, handled, fun slot pinned => handled.carries inverse pinned⟩
  · rintro before first middle second after rfl f slot slot' here there kept
    obtain ⟨still, step⟩ := lookup_of_later run here kept
    exact Option.some.inj ((lookup_of_pinned step there).symm.trans still)
  · refine run.invariant (I := fun door => ∀ f slot, door.slots.assignments.lookup f = some slot →
      f.isEphemeral = false) ?_ ?_
    · intro f slot found
      cases found
    · intro v a w e named next f slot found
      exact named_next next named found

/-- A request leaves no more flows with a slot than there are slots. -/
def Uncrowded (tr : Transition FrontDoor DoorAction DoorEvent) : Prop :=
  ∀ incoming, tr.action = .request incoming → ∀ n, tr.post.slotCount = some n → 1 ≤ n →
    tr.post.slots.assignments.entries.length ≤ n.toNat

/-- The counts are right, there are few of them, and no two flows are on one slot. -/
structure Apart (door : FrontDoor) : Prop where
  consistent : door.slots.Consistent
  few : door.slots.assignments.entries.length < 4294967296
  exclusive : door.slots.Exclusive

namespace Apart

open SlotAllocator

theorem pin (apart : Apart door) (isInference : Bool) (f : FlowId)
    (room : ∀ n, (door.pin isInference f).2.slotCount = some n → 1 ≤ n →
      (door.pin isInference f).2.slots.assignments.entries.length ≤ n.toNat) :
    Apart (door.pin isInference f).2 := by
  rcases door.pin_cases isInference f with ⟨n, ⟨-, -, count, positive⟩, pinned⟩ | ⟨-, pinned⟩
  · rw [pinned] at room ⊢
    have fewer := room n count positive
    have some_ : n ≠ 0 := by
      rintro rfl
      exact absurd positive (by decide)
    have few : (door.slots.assign f n).2.assignments.entries.length < 4294967296 :=
      lt_of_le_of_lt fewer (UInt32.toNat_lt n)
    have fits : ∀ s, (door.slots.assign f n).2.holders s < 4294967296 := by
      exact fun s => lt_of_le_of_lt (holders_le _ s) few
    obtain ⟨consistent, assigned⟩ := apart.consistent.assign f some_ fits
    exact ⟨consistent, few, apart.exclusive.assign apart.consistent assigned fewer⟩
  · rw [pinned]
    exact apart

theorem next (apart : Apart door) (next : nextDoor env door action = some (door', event))
    (roomy : Uncrowded ⟨door, action, event, door'⟩) : Apart door' := by
  cases action with
  | request incoming =>
      obtain ⟨rfl, -⟩ := Prod.mk.inj (Option.some.inj next)
      have room := roomy incoming rfl
      rcases door.receive_cases env incoming with ⟨e, -, same⟩ | ⟨body, -, pinned⟩
      · rw [same]
        exact apart
      · simp only [pinned] at room ⊢
        exact apart.pin _ _ room
  | publish slotCount =>
      obtain ⟨rfl, -⟩ := Prod.mk.inj (Option.some.inj next)
      exact ⟨apart.consistent, apart.few, apart.exclusive⟩
  | release g =>
      obtain ⟨rfl, -⟩ := Prod.mk.inj (Option.some.inj next)
      refine ⟨apart.consistent.release g, lt_of_le_of_lt (length_release_le ..) apart.few,
        apart.exclusive.mono ?_⟩
      · intro f slot found
        have before := (lookup_release ..).symm.trans found
        split at before
        · cases before
        · exact before
  | sweepMissing registered =>
      obtain ⟨rfl, -⟩ := Prod.mk.inj (Option.some.inj next)
      exact ⟨(apart.consistent.sweep registered).1, lt_of_le_of_lt (length_removeAll_le ..) apart.few,
        apart.exclusive.mono fun f slot found => lookup_of_sweepMissing found⟩

end Apart

/-- While there is a slot for everyone, two sessions never share one: no two flows are on
    the same slot, and two requests of different flows carry different ones, unless the
    first flow was taken off its slot in between. -/
theorem sessions_do_not_share (env : DoorEnv) {ts door}
    (run : (frontDoor env).Exec FrontDoor.new ts door) (roomy : ∀ tr ∈ ts, Uncrowded tr) :
    door.slots.Exclusive ∧
    ∀ before first middle second after, ts = before ++ first :: middle ++ second :: after →
      ∀ f g slot slot', pinned first = some (f, slot) → pinned second = some (g, slot') → f ≠ g →
        (∀ tr ∈ middle ++ [second], ¬ Unpins env tr f slot) → slot' ≠ slot := by
  have apart : ∀ {us d}, (frontDoor env).Exec FrontDoor.new us d → (∀ tr ∈ us, tr ∈ ts) →
      Apart d := by
    intro us d part inside
    refine part.invariant_within (C := Uncrowded) (fun tr member => roomy tr (inside tr member)) ?_ ?_
    · refine ⟨.new, by decide, ?_⟩
      intro f g slot found
      cases found
    · exact fun apart roomy next => apart.next next roomy
  refine ⟨(apart run fun _ member => member).exclusive, ?_⟩
  rintro before first middle second after rfl f g slot slot' here there other kept rfl
  obtain ⟨still, step⟩ := lookup_of_later run here kept
  obtain ⟨part, next, -⟩ := run.split_at
  have inside : ∀ tr ∈ (before ++ first :: middle) ++ [second],
      tr ∈ before ++ first :: middle ++ second :: after := by
    intro tr member
    rcases List.mem_append.mp member with earlier | last
    · exact List.mem_append_left _ earlier
    · exact List.mem_append_right _ (List.mem_cons.mpr (.inl (List.mem_singleton.mp last)))
  have exclusive := (apart (part.snoc next) inside).exclusive
  exact other (exclusive f g slot' still (lookup_of_pinned step there))

end

/-- URLs as they come, with the query behind a question mark. -/
def plainUrls (serde : Serde) : DoorEnv := ⟨serde, .ok, fun url query => url ++ 63 :: query⟩

/-- A chat request with one header. -/
def chatWith (name value : String) : Incoming :=
  { method := ascii "POST", path := ascii "/v1/chat/completions", query := none
    headers := [(ascii name, ascii value)], collected := .ok (ascii "\x7b\"stream\":true\x7d")
    uuid := "0" }

/-- The first session comes back under another header. -/
def twoSessions : List DoorAction :=
  [.publish (some 2), .request (chatWith "x-session-id" " s1 "),
    .request (chatWith "session_id" "s2"), .request (chatWith "x-llm-flow-id" "s1")]

theorem pinned_twoSessions :
    ((frontDoor (plainUrls Proxy.tableSerde)).trace twoSessions).map pinned =
      [none, some (⟨"s1"⟩, 1), some (⟨"s2"⟩, 0), some (⟨"s1"⟩, 1)] := by
  decide +kernel

theorem twoSessions_steps : ∃ publish first other second,
    (frontDoor (plainUrls Proxy.tableSerde)).trace twoSessions = [publish, first, other, second] ∧
      pinned first = some (⟨"s1"⟩, 1) ∧ pinned other = some (⟨"s2"⟩, 0) ∧
      pinned second = some (⟨"s1"⟩, 1) ∧
      (∀ tr ∈ [other, second], ∀ f, ¬ Unpins (plainUrls Proxy.tableSerde) tr f 1) ∧
      ∀ tr ∈ [publish, first, other, second], Uncrowded tr := by
  obtain ⟨publish, first, other, second, steps⟩ := List.length_eq_four.mp
    (show ((frontDoor (plainUrls Proxy.tableSerde)).trace twoSessions).length = 4 by decide +kernel)
  have pins := pinned_twoSessions
  have actions : ((frontDoor (plainUrls Proxy.tableSerde)).trace twoSessions).map
      Transition.action = twoSessions := rfl
  have counts : ((frontDoor (plainUrls Proxy.tableSerde)).trace twoSessions).map
      (fun tr => (tr.pre.slotCount, tr.post.slotCount, tr.post.slots.assignments.entries.length)) =
        [(none, some 2, 0), (some 2, some 2, 1), (some 2, some 2, 2), (some 2, some 2, 2)] := by
    decide +kernel
  rw [steps] at pins actions counts
  simp only [List.map_cons, List.map_nil, List.cons.injEq] at pins
  simp only [List.map_cons, List.map_nil, List.cons.injEq, twoSessions] at actions
  simp only [List.map_cons, List.map_nil, List.cons.injEq, Prod.mk.injEq] at counts
  obtain ⟨-, pinsFirst, pinsOther, pinsSecond, -⟩ := pins
  obtain ⟨published, -, otherAction, secondAction, -⟩ := actions
  obtain ⟨-, ⟨-, count, length⟩, ⟨otherBefore, otherCount, otherLength⟩,
    ⟨secondBefore, secondCount, secondLength⟩, -⟩ := counts
  have stays : ∀ (tr : Transition FrontDoor DoorAction DoorEvent) incoming f,
      tr.action = .request incoming → tr.pre.slotCount = some 2 →
        ¬ Unpins (plainUrls Proxy.tableSerde) tr f 1 := by
    intro tr incoming f action before
    rw [Unpins, action]
    rintro ⟨-, n, slots, -, stale⟩
    rw [before] at slots
    obtain rfl := Option.some.inj slots
    exact absurd stale (by decide)
  have room : ∀ tr : Transition FrontDoor DoorAction DoorEvent, tr.post.slotCount = some 2 →
      tr.post.slots.assignments.entries.length ≤ 2 → Uncrowded tr := by
    intro tr after few incoming _ n slots _
    rw [after] at slots
    obtain rfl := Option.some.inj slots
    exact few
  refine ⟨publish, first, other, second, steps, pinsFirst, pinsOther, pinsSecond, ?_, ?_⟩
  · simp only [List.mem_cons, List.not_mem_nil, or_false, forall_eq_or_imp, forall_eq]
    exact ⟨fun f => stays other _ f otherAction otherBefore,
      fun f => stays second _ f secondAction secondBefore⟩
  · simp only [List.mem_cons, List.not_mem_nil, or_false, forall_eq_or_imp, forall_eq]
    refine ⟨?_, room first count (by omega), room other otherCount (by omega),
      room second secondCount (by omega)⟩
    intro incoming action
    rw [published] at action
    cases action

theorem sessions_keep_their_slots_again : ∃ publish first other second,
    (frontDoor (plainUrls Proxy.tableSerde)).trace twoSessions = [publish, first, other, second] ∧
      pinned first = some (⟨"s1"⟩, 1) ∧ ∀ slot, pinned second = some (⟨"s1"⟩, slot) → slot = 1 := by
  obtain ⟨publish, first, other, second, steps, pins, -, -, kept, -⟩ := twoSessions_steps
  have run := Machine.exec_after (frontDoor (plainUrls Proxy.tableSerde)) twoSessions
  refine ⟨publish, first, other, second, steps, pins, fun slot again => ?_⟩
  exact (sessions_keep_their_slots _ Proxy.tableSerde_inverse run).2.1 [publish] first [other] second
    [] steps ⟨"s1"⟩ 1 slot pins again fun tr member => kept tr member ⟨"s1"⟩

theorem sessions_do_not_share_two : ∃ publish first other second,
    (frontDoor (plainUrls Proxy.tableSerde)).trace twoSessions = [publish, first, other, second] ∧
      pinned first = some (⟨"s1"⟩, 1) ∧ ∀ slot, pinned other = some (⟨"s2"⟩, slot) → slot ≠ 1 := by
  obtain ⟨publish, first, other, second, steps, pins, -, -, kept, roomy⟩ := twoSessions_steps
  have run := Machine.exec_after (frontDoor (plainUrls Proxy.tableSerde)) twoSessions
  refine ⟨publish, first, other, second, steps, pins, fun slot pinsOther => ?_⟩
  refine (sessions_do_not_share _ run ?_).2 [publish] first [] other [second] steps ⟨"s1"⟩ ⟨"s2"⟩ 1
    slot pins pinsOther (by decide) ?_
  · rw [steps]
    exact roomy
  · intro tr member
    obtain rfl := List.mem_singleton.mp member
    exact kept tr (by simp) ⟨"s1"⟩

end TinyLlb
