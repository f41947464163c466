import TinyLlb.Gateway.TransientRetry

/-! # The forwarded request

The body is passed on as it came, but for two members that the gateway sets in it:
`stream_options.include_usage` in streaming requests and `id_slot` in requests that
have a slot. Bytes are turned into values and back by a reader and a writer that are
left open.
-/

namespace TinyLlb

/-- `serde_json::from_slice` and `serde_json::to_vec`. -/
structure Serde where
  fromSlice : Bytes → Option Json
  toVec : Json → Option Bytes

/-- Every value can be written, and an object reads back as an object. -/
structure Serde.Faithful (serde : Serde) : Prop where
  writes : ∀ value, (serde.toVec value).isSome = true
  readsBack : ∀ members bytes, serde.toVec (.object members) = some bytes →
    ∃ read, serde.fromSlice bytes = some (.object read)

/-- An inference request: a POST to one of the two completion routes. -/
structure ClientRequest where
  /-- The path is `/v1/chat/completions`. -/
  isChat : Bool
  headers : HeaderMap
  body : Bytes

namespace Proxy

variable (serde : Serde)

def bodyWantsStreaming (body : Bytes) : Bool :=
  if body.isEmpty then false
  else
    match serde.fromSlice body with
    | some value => ((value.get "stream").bind Json.asBool).getD false
    | none => false

/-- What `stream_options` becomes: a value that is no object stays as it is. -/
def withIncludeUsage : Option Json → Json
  | none => .object [("include_usage", .bool true)]
  | some (.object options) => .object (options ++ [("include_usage", .bool true)])
  | some other => other

def injectIncludeUsage (body : Bytes) : Option Bytes :=
  match serde.fromSlice body with
  | some (.object members) =>
      let value := Json.object members
      if (value.get "stream").bind Json.asBool ≠ some true then none
      else if ((value.get "stream_options").bind (Json.get "include_usage")).bind Json.asBool =
          some true then none
      else
        (value.set "stream_options" (withIncludeUsage (value.get "stream_options"))).bind serde.toVec
  | _ => none

def injectIdSlot (body : Bytes) (slot : Nat) : Option Bytes :=
  match serde.fromSlice body with
  | some (.object members) =>
      ((Json.object members).set "id_slot" (.number (.posInt slot))).bind serde.toVec
  | _ => none

/-- The body after both injections. -/
def forwardedBody (body : Bytes) (idSlot : Option Nat) : Bytes :=
  let body := (injectIncludeUsage serde body).getD body
  match idSlot with
  | some slot => (injectIdSlot serde body slot).getD body
  | none => body

/-- The client's headers; their length goes when the body changed. -/
def forwardedHeaders (request : ClientRequest) (idSlot : Option Nat) : HeaderMap :=
  if forwardedBody serde request.body idSlot ≠ request.body then
    request.headers.filterHeaders.remove HeaderMap.contentLength
  else request.headers.filterHeaders

/-- The first attempt. -/
def forwardedRequest (request : ClientRequest) (idSlot : Option Nat) : BackendRequest :=
  ⟨forwardedHeaders serde request idSlot, forwardedBody serde request.body idSlot⟩

variable {serde}

def IsObject (serde : Serde) (body : Bytes) : Prop :=
  ∃ members, serde.fromSlice body = some (.object members)

theorem isObject_of_set {members : List (String × Json)} {key : String} {member : Json} {bytes : Bytes}
    (faithful : serde.Faithful)
    (written : ((Json.object members).set key member).bind serde.toVec = some bytes) :
    IsObject serde bytes :=
  faithful.readsBack _ _ written

theorem isObject_injectIncludeUsage {body changed : Bytes} (faithful : serde.Faithful)
    (injected : injectIncludeUsage serde body = some changed) : IsObject serde changed := by
  unfold injectIncludeUsage at injected
  split at injected
  · simp only at injected
    split at injected
    · cases injected
    · split at injected
      · cases injected
      · exact isObject_of_set faithful injected
  · cases injected

theorem isObject_injectIdSlot {body changed : Bytes} {slot : Nat} (faithful : serde.Faithful)
    (injected : injectIdSlot serde body slot = some changed) : IsObject serde changed := by
  unfold injectIdSlot at injected
  split at injected
  · exact isObject_of_set faithful injected
  · cases injected

theorem isObject_forwardedBody {body : Bytes} (faithful : serde.Faithful) (object : IsObject serde body)
    (idSlot : Option Nat) : IsObject serde (forwardedBody serde body idSlot) := by
  have usage : IsObject serde ((injectIncludeUsage serde body).getD body) := by
    cases injected : injectIncludeUsage serde body with
    | none => exact object
    | some changed => exact isObject_injectIncludeUsage faithful injected
  unfold forwardedBody
  cases idSlot with
  | none => exact usage
  | some slot =>
      change IsObject serde ((injectIdSlot serde _ slot).getD _)
      cases injected : injectIdSlot serde ((injectIncludeUsage serde body).getD body) slot with
      | none => exact usage
      | some changed => exact isObject_injectIdSlot faithful injected

theorem forwardedRequest_declares {request : ClientRequest}
    (consistent : request.headers.Declares request.body) (idSlot : Option Nat) :
    (forwardedRequest serde request idSlot).headers.Declares
      (forwardedRequest serde request idSlot).body := by
  change (forwardedHeaders serde request idSlot).Declares (forwardedBody serde request.body idSlot)
  unfold forwardedHeaders
  split
  · exact HeaderMap.declares_remove _ _
  · rename_i same
    rw [Decidable.not_not.mp same]
    exact consistent.filter _

end Proxy

end TinyLlb
