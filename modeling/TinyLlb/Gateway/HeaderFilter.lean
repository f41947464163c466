import TinyLlb.Gateway.Headers

/-! # Which headers the filter strips

A sender names the headers that end at this hop in its `Connection` headers: any number
of them, each a list with names in any case. The filter looks at the first one only, and
looks up its names as they are spelled there.
-/

namespace TinyLlb

namespace HeaderMap

def connection : Bytes := ascii "connection"

def lowerByte (b : UInt8) : UInt8 := if 65 ≤ b.toNat ∧ b.toNat ≤ 90 then b + 32 else b

/-- `to_ascii_lowercase`. -/
def lower (name : Bytes) : Bytes := name.map lowerByte

/-- Names as a header map stores them. -/
def LowerCased (headers : HeaderMap) : Prop := ∀ header ∈ headers, lower header.1 = header.1

instance (headers : HeaderMap) : Decidable headers.LowerCased :=
  inferInstanceAs (Decidable (∀ header ∈ headers, lower header.1 = header.1))

/-- The names in a value of `Connection`. -/
def namesOf (value : Bytes) : List Bytes := (value.splitOn 44).map trim

/-- The names that the `Connection` headers list, in whatever case. -/
def listedNames (headers : HeaderMap) : List Bytes :=
  (headers.values connection).flatMap fun value => (namesOf value).map lower

/-- Neither hop-by-hop, nor `host`, nor listed. -/
def mayPass (headers : HeaderMap) (name : Bytes) : Bool :=
  !hopByHop.contains name && !excludeHeaders.contains name && !headers.listedNames.contains name

/-- Exactly the headers that may pass are left, and filtering them again leaves them. -/
def FiltersAsTold (headers : HeaderMap) : Prop :=
  headers.filterHeaders = headers.filter (fun header => headers.mayPass header.1) ∧
    headers.filterHeaders.filterHeaders = headers.filterHeaders

/-- The first `Connection` header is in visible ASCII and spells the name as it is. -/
def SpelledFirst (headers : HeaderMap) (name : Bytes) : Prop :=
  ∃ value, headers.get connection = some value ∧ value.all isVisibleAscii = true ∧
    name ∈ namesOf value

variable {headers : HeaderMap} {name : Bytes}

theorem mem_connectionNames_iff : name ∈ headers.connectionNames ↔ headers.SpelledFirst name := by
  unfold connectionNames SpelledFirst connection
  cases headers.get (ascii "connection") with
  | none => simp
  | some value => by_cases visible : value.all isVisibleAscii = true <;> simp_all [namesOf]

instance (headers : HeaderMap) (name : Bytes) : Decidable (headers.SpelledFirst name) :=
  decidable_of_iff (name ∈ headers.connectionNames) mem_connectionNames_iff

theorem mem_values_of_get {value : Bytes} (found : headers.get name = some value) :
    value ∈ headers.values name := by
  obtain ⟨header, first, rfl⟩ := Option.map_eq_some_iff.mp found
  have named := List.find?_some first
  exact List.mem_map.mpr
    ⟨header, List.mem_filter.mpr ⟨List.mem_of_find?_eq_some first, named⟩, rfl⟩

theorem listed_of_spelledFirst (stored : lower name = name) (spelled : headers.SpelledFirst name) :
    name ∈ headers.listedNames := by
  obtain ⟨value, found, -, member⟩ := spelled
  refine List.mem_flatMap.mpr ⟨value, mem_values_of_get found, ?_⟩
  exact List.mem_map.mpr ⟨name, member, stored⟩

theorem mem_filterHeaders {header : Bytes × Bytes} :
    header ∈ headers.filterHeaders ↔ header ∈ headers ∧ header.1 ∉ hopByHop ∧
      header.1 ∉ excludeHeaders ∧ ¬ headers.SpelledFirst header.1 := by
  rw [filterHeaders, List.mem_filter, ← mem_connectionNames_iff]
  simp only [Bool.not_eq_true', List.contains_eq_mem, List.mem_append, decide_eq_false_iff_not]
  tauto

theorem connectionNames_filterHeaders (headers : HeaderMap) :
    headers.filterHeaders.connectionNames = [] := by
  have gone : headers.filterHeaders.get (ascii "connection") = none := by
    rw [get, Option.map_eq_none_iff, List.find?_eq_none]
    intro header member named
    refine (mem_filterHeaders.mp member).2.1 ?_
    rw [beq_iff_eq.mp named]
    exact List.mem_cons_self
  rw [connectionNames, gone]

theorem filterHeaders_idempotent (headers : HeaderMap) :
    headers.filterHeaders.filterHeaders = headers.filterHeaders := by
  apply List.filter_eq_self.mpr
  intro header member
  have passed := mem_filterHeaders.mp member
  simp [connectionNames_filterHeaders, passed.2.1, passed.2.2.1]

theorem mayPass_iff (headers : HeaderMap) (name : Bytes) :
    headers.mayPass name = true ↔
      name ∉ hopByHop ∧ name ∉ excludeHeaders ∧ name ∉ headers.listedNames := by
  simp [mayPass, and_assoc]

/-- The filter does as told exactly when every listed header that is there, and is not
    stripped anyway, is spelled as it is in the first `Connection` header. -/
theorem filter_headers_iff (headers : HeaderMap) (stored : headers.LowerCased) :
    headers.FiltersAsTold ↔
      ∀ header ∈ headers, header.1 ∈ headers.listedNames → header.1 ∉ hopByHop →
        header.1 ∉ excludeHeaders → headers.SpelledFirst header.1 := by
  rw [FiltersAsTold, and_iff_left headers.filterHeaders_idempotent]
  constructor
  · intro same header member listed notHop notHost
    by_contra unread
    have kept : header ∈ headers.filterHeaders :=
      mem_filterHeaders.mpr ⟨member, notHop, notHost, unread⟩
    rw [same] at kept
    exact ((mayPass_iff headers header.1).mp (List.mem_filter.mp kept).2).2.2 listed
  · intro spelled
    apply List.filter_congr
    intro header member
    have read : headers.SpelledFirst header.1 → header.1 ∈ headers.listedNames :=
      listed_of_spelledFirst (stored header member)
    have unread := spelled header member
    rw [Bool.eq_iff_iff, mayPass_iff]
    simp only [Bool.not_eq_true', List.contains_eq_mem, List.mem_append, decide_eq_false_iff_not,
      mem_connectionNames_iff]
    tauto

/-- A client that ends `x-session` at this hop. -/
theorem filter_headers_lower_case :
    FiltersAsTold [(connection, ascii "close, x-session"), (ascii "x-session", ascii "7"),
      (ascii "accept", ascii "a"), (ascii "accept", ascii "b")] := by
  refine (filter_headers_iff _ (by decide +kernel)).mpr ?_
  decide +kernel

/-- Spelled with capitals, or in a second `Connection` header, the name is not seen. -/
theorem filter_headers_capitals :
    ¬ ∀ headers : HeaderMap, headers.LowerCased → headers.FiltersAsTold := by
  intro told
  have same := (told [(connection, ascii "X-Session"), (ascii "x-session", ascii "7")]
    (by decide +kernel)).1
  revert same
  decide +kernel

example : filterHeaders [(connection, ascii "close"), (connection, ascii "x-session"),
    (ascii "x-session", ascii "7")] = [(ascii "x-session", ascii "7")] := by decide +kernel

end HeaderMap

end TinyLlb
