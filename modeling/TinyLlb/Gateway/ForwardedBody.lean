import TinyLlb.Gateway.Forwarding
import TinyLlb.Library.JsonMeaning

/-! # What the forwarded body means

Values are compared by their meaning: the order of members and the replaced ones are
lost when a body is read and written again. On meanings both rewrites are updates of a
map, and the forwarded body is that update of the received one.
-/

namespace TinyLlb

/-- What a body means, where it can be read. -/
def Serde.meaningOf (serde : Serde) (body : Bytes) : Option JsonValue :=
  (serde.fromSlice body).map Json.meaning

/-- The body is the text of a value with that meaning. -/
def Serde.Prints (serde : Serde) (value : JsonValue) (body : Bytes) : Prop :=
  ∃ source : Json, source.meaning = value ∧ serde.toVec source = some body

/-- Reading and writing are inverse on values: every value has a text, which depends on
    its meaning alone and is read back as a value of that meaning. -/
structure Serde.Inverse (serde : Serde) : Prop where
  writes : ∀ source, ∃ body, serde.toVec source = some body
  canonical : ∀ source source', source.meaning = source'.meaning →
    serde.toVec source = serde.toVec source'
  readsBack : ∀ source body, serde.toVec source = some body →
    serde.meaningOf body = some source.meaning

/-- The members of an object by name. -/
abbrev Members := String → Option JsonValue

namespace Proxy

/-- `stream` is `true`. -/
def Streams (members : Members) : Prop := members "stream" = some (.bool true)

/-- A member of `stream_options`. -/
def optionOf (name : String) (members : Members) : Option JsonValue :=
  (members "stream_options").bind (JsonValue.member name)

/-- `stream_options.include_usage` is `true`. -/
def Requested (members : Members) : Prop := optionOf "include_usage" members = some (.bool true)

/-- `stream_options` is there and no object. -/
def Unusable (members : Members) : Prop :=
  ∃ other, members "stream_options" = some other ∧ ∀ options, other ≠ .object options

def usageIncluded : Option JsonValue → JsonValue
  | none => .object (Function.update (fun _ => none) "include_usage" (some (.bool true)))
  | some (.object options) =>
      .object (Function.update options "include_usage" (some (.bool true)))
  | some other => other

def usageForced (members : Members) : Members :=
  match members "stream" with
  | some (.bool true) =>
      Function.update members "stream_options" (some (usageIncluded (members "stream_options")))
  | _ => members

def slotted (idSlot : Option Nat) (members : Members) : Members :=
  match idSlot with
  | some slot => Function.update members "id_slot" (some (.number (.posInt slot)))
  | none => members

section

variable {members : Members} {idSlot : Option Nat} {name : String}

theorem usageForced_of_streams (streams : Streams members) :
    usageForced members = Function.update members "stream_options"
      (some (usageIncluded (members "stream_options"))) := by
  unfold Streams at streams
  simp [usageForced, streams]

theorem usageForced_of_not_streams (still : ¬ Streams members) : usageForced members = members := by
  unfold usageForced
  split
  · rename_i streams
    exact absurd streams still
  · rfl

theorem usageIncluded_of_requested (requested : Requested members) :
    some (usageIncluded (members "stream_options")) = members "stream_options" := by
  unfold Requested optionOf at requested
  cases found : members "stream_options" with
  | none => simp [found] at requested
  | some value =>
      cases value with
      | object options =>
          have here : options "include_usage" = some (.bool true) := by
            simpa [found, JsonValue.member] using requested
          simp only [usageIncluded, ← here, Function.update_eq_self]
      | null | bool | number | string | array => rfl

theorem usageForced_of_requested (requested : Requested members) :
    usageForced members = members := by
  by_cases streams : Streams members
  · rw [usageForced_of_streams streams, usageIncluded_of_requested requested,
      Function.update_eq_self]
  · exact usageForced_of_not_streams streams

theorem usageForced_of_ne (other : name ≠ "stream_options") :
    usageForced members name = members name := by
  by_cases streams : Streams members
  · rw [usageForced_of_streams streams, Function.update_of_ne other]
  · rw [usageForced_of_not_streams streams]

theorem requested_usageForced (streams : Streams members) :
    Requested (usageForced members) ↔ ¬ Unusable members := by
  rw [usageForced_of_streams streams]
  unfold Requested optionOf Unusable
  rw [Function.update_self]
  cases members "stream_options" with
  | none => simp [usageIncluded, JsonValue.member]
  | some value => cases value <;> simp [usageIncluded, JsonValue.member]

theorem optionOf_usageForced (other : name ≠ "include_usage") :
    optionOf name (usageForced members) = optionOf name members := by
  by_cases streams : Streams members
  · rw [usageForced_of_streams streams]
    unfold optionOf
    rw [Function.update_self]
    cases members "stream_options" with
    | none => simp [usageIncluded, JsonValue.member, other]
    | some value => cases value <;> simp [usageIncluded, JsonValue.member, other]
  · rw [usageForced_of_not_streams streams]

theorem slotted_of_ne (other : name = "id_slot" → idSlot = none) :
    slotted idSlot members name = members name := by
  cases idSlot with
  | none => rfl
  | some slot =>
      have away : name ≠ "id_slot" := fun same => by simpa using other same
      simp [slotted, away]

theorem slotted_slotted : slotted idSlot (slotted idSlot members) = slotted idSlot members := by
  cases idSlot <;> simp [slotted]

theorem optionOf_slotted : optionOf name (slotted idSlot members) = optionOf name members := by
  unfold optionOf
  rw [slotted_of_ne (by simp)]

theorem streams_slotted : Streams (slotted idSlot members) ↔ Streams members := by
  unfold Streams
  rw [slotted_of_ne (by simp)]

theorem streams_usageForced : Streams (usageForced members) ↔ Streams members := by
  unfold Streams
  rw [usageForced_of_ne (by simp)]

end

section

variable {serde : Serde} {body bytes : Bytes} {members : Members} {value : JsonValue}
  {idSlot : Option Nat} {slot : Nat}

theorem meaningOf_prints (inverse : serde.Inverse) (printed : serde.Prints value bytes) :
    serde.meaningOf bytes = some value := by
  obtain ⟨source, rfl, written⟩ := printed
  exact inverse.readsBack source bytes written

theorem prints_unique (inverse : serde.Inverse) {bytes' : Bytes} (printed : serde.Prints value bytes)
    (printed' : serde.Prints value bytes') : bytes = bytes' := by
  obtain ⟨source, means, written⟩ := printed
  obtain ⟨source', means', written'⟩ := printed'
  rw [inverse.canonical source source' (means.trans means'.symm), written'] at written
  exact (Option.some.inj written).symm

theorem fromSlice_of_object (read : serde.meaningOf body = some (.object members)) :
    ∃ listed, serde.fromSlice body = some (.object listed) ∧ Json.memberMeanings listed = members := by
  obtain ⟨source, found, means⟩ := Option.map_eq_some_iff.mp read
  obtain ⟨listed, rfl, same⟩ := Json.meaning_eq_object means
  exact ⟨listed, found, same⟩

theorem not_object_of_meaningOf (other : ∀ members, serde.meaningOf body ≠ some (.object members))
    (listed : List (String × Json)) : serde.fromSlice body ≠ some (.object listed) := by
  intro found
  exact other (Json.memberMeanings listed) (by rw [Serde.meaningOf, found]; rfl)

theorem prints_set (inverse : serde.Inverse) (listed : List (String × Json)) (key : String)
    (member : Json) :
    ∃ bytes, ((Json.object listed).set key member).bind serde.toVec = some bytes ∧
      serde.Prints
        (.object (Function.update (Json.memberMeanings listed) key (some member.meaning))) bytes := by
  obtain ⟨bytes, written⟩ := inverse.writes (.object (listed ++ [(key, member)]))
  refine ⟨bytes, written, _, ?_, written⟩
  rw [Json.meaning, Json.memberMeanings_append]

theorem meaning_withIncludeUsage (options : Option Json) :
    (withIncludeUsage options).meaning = usageIncluded (options.map Json.meaning) := by
  cases options with
  | none =>
      simp only [withIncludeUsage, usageIncluded, Json.meaning, Option.map_none]
      rw [← List.nil_append [("include_usage", Json.bool true)], Json.memberMeanings_append]
      rfl
  | some value =>
      cases value with
      | object options =>
          simp only [withIncludeUsage, usageIncluded, Json.meaning, Option.map_some]
          rw [Json.memberMeanings_append]
          rfl
      | null | bool | number | string | array => rfl

theorem streams_iff (listed : List (String × Json)) :
    ((Json.object listed).get "stream").bind Json.asBool = some true ↔
      Streams (Json.memberMeanings listed) := Json.get_bind_asBool

theorem requested_iff (listed : List (String × Json)) :
    (((Json.object listed).get "stream_options").bind (Json.get "include_usage")).bind Json.asBool =
        some true ↔ Requested (Json.memberMeanings listed) := by
  have options : ((Json.object listed).get "stream_options").map Json.meaning =
      Json.memberMeanings listed "stream_options" := Json.meaning_get _ _
  unfold Requested optionOf
  rw [← options]
  cases (Json.object listed).get "stream_options" with
  | none => simp
  | some value => exact Json.get_bind_asBool

theorem injectIncludeUsage_eq_none (read : serde.meaningOf body = some (.object members))
    (calm : Streams members → Requested members) : injectIncludeUsage serde body = none := by
  obtain ⟨listed, found, rfl⟩ := fromSlice_of_object read
  simp only [injectIncludeUsage, found]
  by_cases streams : Streams (Json.memberMeanings listed)
  · rw [if_neg (Decidable.not_not.mpr ((streams_iff listed).mpr streams)),
      if_pos ((requested_iff listed).mpr (calm streams))]
  · rw [if_pos fun wants => streams ((streams_iff listed).mp wants)]

theorem prints_injectIncludeUsage (inverse : serde.Inverse)
    (read : serde.meaningOf body = some (.object members)) (streams : Streams members)
    (missing : ¬ Requested members) :
    ∃ bytes, injectIncludeUsage serde body = some bytes ∧
      serde.Prints (.object (usageForced members)) bytes := by
  obtain ⟨listed, found, rfl⟩ := fromSlice_of_object read
  obtain ⟨bytes, written, printed⟩ := prints_set inverse listed "stream_options"
    (withIncludeUsage ((Json.object listed).get "stream_options"))
  refine ⟨bytes, ?_, ?_⟩
  · simp only [injectIncludeUsage, found]
    rw [if_neg (Decidable.not_not.mpr ((streams_iff listed).mpr streams)),
      if_neg fun there => missing ((requested_iff listed).mp there)]
    exact written
  · have options : ((Json.object listed).get "stream_options").map Json.meaning =
        Json.memberMeanings listed "stream_options" := Json.meaning_get _ _
    rwa [usageForced_of_streams streams, ← options, ← meaning_withIncludeUsage]

theorem prints_injectIdSlot (inverse : serde.Inverse)
    (read : serde.meaningOf body = some (.object members)) (slot : Nat) :
    ∃ bytes, injectIdSlot serde body slot = some bytes ∧
      serde.Prints (.object (slotted (some slot) members)) bytes := by
  obtain ⟨listed, found, rfl⟩ := fromSlice_of_object read
  obtain ⟨bytes, written, printed⟩ := prints_set inverse listed "id_slot" (.number (.posInt slot))
  exact ⟨bytes, by simp only [injectIdSlot, found, written], printed⟩

theorem meaningOf_usage (inverse : serde.Inverse)
    (read : serde.meaningOf body = some (.object members)) :
    serde.meaningOf ((injectIncludeUsage serde body).getD body) =
      some (.object (usageForced members)) := by
  by_cases needed : Streams members ∧ ¬ Requested members
  · obtain ⟨bytes, injected, printed⟩ :=
      prints_injectIncludeUsage inverse read needed.1 needed.2
    rw [injected]
    exact meaningOf_prints inverse printed
  · have calm : Streams members → Requested members := fun streams =>
      of_not_not fun missing => needed ⟨streams, missing⟩
    have same : usageForced members = members := by
      by_cases streams : Streams members
      · exact usageForced_of_requested (calm streams)
      · exact usageForced_of_not_streams streams
    rw [injectIncludeUsage_eq_none read calm, same]
    exact read

/-- The forwarded body is the received one with both members set. -/
theorem meaningOf_forwardedBody (inverse : serde.Inverse)
    (read : serde.meaningOf body = some (.object members)) (idSlot : Option Nat) :
    serde.meaningOf (forwardedBody serde body idSlot) =
      some (.object (slotted idSlot (usageForced members))) := by
  have first := meaningOf_usage inverse read
  cases idSlot with
  | none => exact first
  | some slot =>
      obtain ⟨bytes, injected, printed⟩ := prints_injectIdSlot inverse first slot
      simp only [forwardedBody, injected, Option.getD_some]
      exact meaningOf_prints inverse printed

theorem forwardedBody_of_other (other : ∀ members, serde.meaningOf body ≠ some (.object members))
    (idSlot : Option Nat) : forwardedBody serde body idSlot = body := by
  have usage : injectIncludeUsage serde body = none := by
    unfold injectIncludeUsage
    split
    · rename_i listed found
      exact absurd found (not_object_of_meaningOf other listed)
    · rfl
  have slot : ∀ slot, injectIdSlot serde body slot = none := by
    intro slot
    unfold injectIdSlot
    split
    · rename_i listed found
      exact absurd found (not_object_of_meaningOf other listed)
    · rfl
  cases idSlot <;> simp [forwardedBody, usage, slot]

theorem forwardedBody_again (inverse : serde.Inverse)
    (read : serde.meaningOf body = some (.object members))
    (usable : Streams members → ¬ Unusable members) (idSlot : Option Nat) :
    forwardedBody serde (forwardedBody serde body idSlot) idSlot =
      forwardedBody serde body idSlot := by
  have whole := meaningOf_forwardedBody inverse read idSlot
  have settled : Streams (slotted idSlot (usageForced members)) →
      Requested (slotted idSlot (usageForced members)) := by
    intro streams
    rw [streams_slotted, streams_usageForced] at streams
    unfold Requested
    rw [optionOf_slotted]
    exact (requested_usageForced streams).mpr (usable streams)
  cases idSlot with
  | none =>
      have calm := injectIncludeUsage_eq_none whole settled
      rw [forwardedBody, calm]
      rfl
  | some slot =>
      obtain ⟨bytes, injected, printed⟩ :=
        prints_injectIdSlot inverse (meaningOf_usage inverse read) slot
      have text : forwardedBody serde body (some slot) = bytes := by
        simp only [forwardedBody, injected, Option.getD_some]
      rw [text] at whole ⊢
      obtain ⟨bytes', injected', printed'⟩ := prints_injectIdSlot inverse whole slot
      rw [slotted_slotted] at printed'
      rw [forwardedBody, injectIncludeUsage_eq_none whole settled]
      simp only [Option.getD_none, injected', Option.getD_some]
      exact prints_unique inverse printed' printed

/-- Both members are set where they have to be, and nothing else changes. -/
structure Honours (serde : Serde) (body : Bytes) (idSlot : Option Nat) : Prop where
  usage : ∀ members, serde.meaningOf body = some (.object members) → Streams members →
    ∃ forwarded, serde.meaningOf (forwardedBody serde body idSlot) = some (.object forwarded) ∧
      Requested forwarded
  pinned : ∀ members, serde.meaningOf body = some (.object members) → ∀ slot, idSlot = some slot →
    ∃ forwarded, serde.meaningOf (forwardedBody serde body idSlot) = some (.object forwarded) ∧
      forwarded "id_slot" = some (.number (.posInt slot))
  others : ∀ members, serde.meaningOf body = some (.object members) →
    ∃ forwarded, serde.meaningOf (forwardedBody serde body idSlot) = some (.object forwarded) ∧
      (∀ name, (name = "stream_options" → Streams members → Requested members) →
        (name = "id_slot" → idSlot = none) → forwarded name = members name) ∧
      ∀ name, name ≠ "include_usage" → optionOf name forwarded = optionOf name members
  again : forwardedBody serde (forwardedBody serde body idSlot) idSlot =
    forwardedBody serde body idSlot
  verbatim : (∀ members, serde.meaningOf body ≠ some (.object members)) ∨
      idSlot = none ∧ (∀ members, serde.meaningOf body = some (.object members) →
        Streams members → Requested members) →
    forwardedBody serde body idSlot = body

/-- A streaming request whose `stream_options` is no object. -/
def UsageLost (serde : Serde) (body : Bytes) : Prop :=
  ∃ members, serde.meaningOf body = some (.object members) ∧ Streams members ∧ Unusable members

theorem others_of_object (inverse : serde.Inverse)
    (read : serde.meaningOf body = some (.object members)) (idSlot : Option Nat) :
    ∃ forwarded, serde.meaningOf (forwardedBody serde body idSlot) = some (.object forwarded) ∧
      (∀ name, (name = "stream_options" → Streams members → Requested members) →
        (name = "id_slot" → idSlot = none) → forwarded name = members name) ∧
      ∀ name, name ≠ "include_usage" → optionOf name forwarded = optionOf name members := by
  refine ⟨_, meaningOf_forwardedBody inverse read idSlot, ?_, ?_⟩
  · intro name options slot
    rw [slotted_of_ne slot]
    by_cases there : name = "stream_options"
    · by_cases streams : Streams members
      · rw [usageForced_of_requested (options there streams)]
      · rw [usageForced_of_not_streams streams]
    · exact usageForced_of_ne there
  · intro name other
    rw [optionOf_slotted, optionOf_usageForced other]

theorem verbatim_of_calm (idSlot : Option Nat)
    (calm : (∀ members, serde.meaningOf body ≠ some (.object members)) ∨
      idSlot = none ∧ (∀ members, serde.meaningOf body = some (.object members) →
        Streams members → Requested members)) : forwardedBody serde body idSlot = body := by
  by_cases object : ∃ members, serde.meaningOf body = some (.object members)
  · obtain ⟨members, read⟩ := object
    rcases calm with other | ⟨rfl, requested⟩
    · exact absurd read (other members)
    · rw [forwardedBody, injectIncludeUsage_eq_none read (requested members read)]
      rfl
  · exact forwardedBody_of_other (fun members read => object ⟨members, read⟩) idSlot

theorem not_honours_of_lost (inverse : serde.Inverse) (lost : UsageLost serde body)
    (idSlot : Option Nat) : ¬ Honours serde body idSlot := by
  obtain ⟨members, read, streams, unusable⟩ := lost
  intro honours
  obtain ⟨forwarded, read', requested⟩ := honours.usage members read streams
  rw [meaningOf_forwardedBody inverse read idSlot, Option.some.injEq,
    JsonValue.object.injEq] at read'
  subst read'
  unfold Requested at requested
  rw [optionOf_slotted] at requested
  exact (requested_usageForced streams).mp requested unusable

/-- The promise is kept for every body but one kind: where a streaming request carries
    `stream_options` that are no object, usage is never requested. -/
theorem forwarded_body_honours_iff (serde : Serde) (inverse : serde.Inverse) (body : Bytes)
    (idSlot : Option Nat) : Honours serde body idSlot ↔ ¬ UsageLost serde body := by
  constructor
  · exact fun honours lost => not_honours_of_lost inverse lost idSlot honours
  · intro kept
    have usable : ∀ members, serde.meaningOf body = some (.object members) → Streams members →
        ¬ Unusable members :=
      fun members read streams unusable => kept ⟨members, read, streams, unusable⟩
    refine ⟨?_, ?_, ?_, ?_, verbatim_of_calm idSlot⟩
    · intro members read streams
      refine ⟨_, meaningOf_forwardedBody inverse read idSlot, ?_⟩
      unfold Requested
      rw [optionOf_slotted]
      exact (requested_usageForced streams).mpr (usable members read streams)
    · rintro members read slot rfl
      exact ⟨_, meaningOf_forwardedBody inverse read (some slot), by simp [slotted]⟩
    · intro members read
      exact others_of_object inverse read idSlot
    · by_cases object : ∃ members, serde.meaningOf body = some (.object members)
      · obtain ⟨members, read⟩ := object
        exact forwardedBody_again inverse read (usable members read) idSlot
      · have same := forwardedBody_of_other (fun members read => object ⟨members, read⟩) idSlot
        rw [same, same]

end

section

open Classical

/-- Some values with their texts. -/
def bodyTexts : List (Bytes × Json) :=
  [(ascii "\x7b\"stream\":true\x7d", .object [("stream", .bool true)]),
    (ascii "\x7b\"stream\":true,\"stream_options\":null\x7d",
      .object [("stream", .bool true), ("stream_options", .null)]),
    (ascii "\x7b\"stream\":true,\"stream_options\":\x7b\"include_usage\":true\x7d\x7d",
      .object [("stream", .bool true),
        ("stream_options", .object [("include_usage", .bool true)])]),
    (ascii ("\x7b\"id_slot\":3,\"stream\":true," ++
        "\"stream_options\":\x7b\"include_usage\":true\x7d\x7d"),
      .object [("id_slot", .number (.posInt 3)), ("stream", .bool true),
        ("stream_options", .object [("include_usage", .bool true)])])]

theorem bodyTexts_nodup : (bodyTexts.map Prod.fst).Nodup := by decide +kernel

theorem bodyTexts_head : ∀ body ∈ bodyTexts.map Prod.fst, body.head? = some 123 := by
  decide +kernel

/-- One value of each meaning. -/
noncomputable def representative (value : Json) : Json :=
  Function.invFun Json.meaning value.meaning

theorem meaning_representative (value : Json) : (representative value).meaning = value.meaning :=
  Function.invFun_eq ⟨value, rfl⟩

noncomputable def jsonCode : Json → Nat := Classical.choose (exists_injective_nat Json)

theorem jsonCode_injective : Function.Injective jsonCode :=
  Classical.choose_spec (exists_injective_nat Json)

/-- The listed texts, and for every other value a code that begins like no text. -/
noncomputable def tableSerde : Serde where
  fromSlice body :=
    match bodyTexts.find? fun entry => entry.1 = body with
    | some entry => some entry.2
    | none =>
        match body with
        | 0 :: code => some (Function.invFun jsonCode code.length)
        | _ => none
  toVec value :=
    match bodyTexts.find? fun entry => entry.2.meaning = value.meaning with
    | some entry => some entry.1
    | none => some (0 :: List.replicate (jsonCode (representative value)) 1)

theorem fromSlice_of_entry {entry : Bytes × Json} (listed : entry ∈ bodyTexts) :
    tableSerde.fromSlice entry.1 = some entry.2 := by
  have found : bodyTexts.find? (fun entry' => entry'.1 = entry.1) = some entry := by
    cases search : bodyTexts.find? (fun entry' => entry'.1 = entry.1) with
    | none =>
        have never := List.find?_eq_none.mp search entry listed
        simp at never
    | some entry' =>
        have same : entry'.1 = entry.1 := by simpa using List.find?_some search
        rw [List.inj_on_of_nodup_map bodyTexts_nodup (List.mem_of_find?_eq_some search) listed same]
  simp only [tableSerde, found]

theorem fromSlice_of_code (value : Json) :
    tableSerde.fromSlice (0 :: List.replicate (jsonCode value) 1) = some value := by
  have absent : bodyTexts.find?
      (fun entry => entry.1 = 0 :: List.replicate (jsonCode value) 1) = none := by
    rw [List.find?_eq_none]
    intro entry listed same
    have head := bodyTexts_head entry.1 (List.mem_map_of_mem listed)
    rw [of_decide_eq_true same] at head
    cases head
  simp only [tableSerde, absent, List.length_replicate]
  rw [Function.leftInverse_invFun jsonCode_injective]

theorem tableSerde_inverse : tableSerde.Inverse := by
  refine ⟨?_, ?_, ?_⟩
  · intro source
    unfold tableSerde
    simp only
    split <;> exact ⟨_, rfl⟩
  · intro source source' same
    simp only [tableSerde, representative, same]
  · intro source body written
    unfold tableSerde at written
    simp only at written
    split at written
    · rename_i entry found
      obtain rfl := Option.some.inj written
      rw [Serde.meaningOf, fromSlice_of_entry (List.mem_of_find?_eq_some found), Option.map_some]
      simpa using List.find?_some found
    · obtain rfl := Option.some.inj written
      rw [Serde.meaningOf, fromSlice_of_code, Option.map_some, meaning_representative]

theorem meaningOf_entry {entry : Bytes × Json} (listed : entry ∈ bodyTexts) :
    tableSerde.meaningOf entry.1 = some entry.2.meaning := by
  rw [Serde.meaningOf, fromSlice_of_entry listed]
  rfl

end

/-- A streaming chat with a slot. -/
theorem forwarded_body_honours_stream :
    Honours tableSerde (ascii "\x7b\"stream\":true\x7d") (some 3) := by
  refine (forwarded_body_honours_iff tableSerde tableSerde_inverse _ _).mpr ?_
  rintro ⟨members, read, -, other, options, -⟩
  have listed : (ascii "\x7b\"stream\":true\x7d", Json.object [("stream", .bool true)]) ∈
      bodyTexts := by simp [bodyTexts]
  rw [meaningOf_entry listed, Option.some.injEq] at read
  obtain rfl := JsonValue.object.inj read
  simp [Json.memberMeanings] at options

/-- A client that spells the default out: `null` stays, and no usage is requested. -/
theorem null_stream_options_forwarded :
    ¬ ∀ serde : Serde, serde.Inverse → ∀ body idSlot, Honours serde body idSlot := by
  intro promised
  have listed : (ascii "\x7b\"stream\":true,\"stream_options\":null\x7d",
      Json.object [("stream", .bool true), ("stream_options", .null)]) ∈ bodyTexts := by
    simp [bodyTexts]
  have lost : UsageLost tableSerde (ascii "\x7b\"stream\":true,\"stream_options\":null\x7d") := by
    refine ⟨_, meaningOf_entry listed, ?_, .null, ?_, by simp⟩
    · simp [Streams, Json.memberMeanings, Json.meaning]
    · simp [Json.memberMeanings, Json.meaning]
  exact not_honours_of_lost tableSerde_inverse lost none
    (promised tableSerde tableSerde_inverse _ none)

end Proxy

end TinyLlb
