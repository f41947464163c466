import TinyLlb.Stream.MetricStream

/-! # Header maps

Names are lower case, and one name can have several values, in order. The gateway
passes headers on except those that belong to a single connection.
-/

namespace TinyLlb

/-- Name and value of every header. -/
abbrev HeaderMap := List (Bytes × Bytes)

namespace HeaderMap

/-- The first value of that name. -/
def get (headers : HeaderMap) (name : Bytes) : Option Bytes :=
  (headers.find? fun header => header.1 == name).map Prod.snd

/-- All values of that name. -/
def values (headers : HeaderMap) (name : Bytes) : List Bytes :=
  (headers.filter fun header => header.1 == name).map Prod.snd

def remove (headers : HeaderMap) (name : Bytes) : HeaderMap :=
  headers.filter fun header => header.1 != name

/-- One value in place of all that the name has. -/
def insert (headers : HeaderMap) (name value : Bytes) : HeaderMap :=
  headers.remove name ++ [(name, value)]

def contentLength : Bytes := ascii "content-length"

/-- `HOP_BY_HOP`. -/
def hopByHop : List Bytes :=
  [ascii "connection", ascii "keep-alive", ascii "proxy-authenticate", ascii "proxy-authorization",
    ascii "te", ascii "trailers", ascii "transfer-encoding", ascii "upgrade"]

/-- `EXCLUDE_HEADERS`. -/
def excludeHeaders : List Bytes := [ascii "host"]

/-- What `to_str` lets through. -/
def isVisibleAscii (b : UInt8) : Bool := (decide (32 ≤ b.toNat) && decide (b.toNat < 127)) || b == 9

/-- The names that the first `Connection` header lists, as they are spelled. -/
def connectionNames (headers : HeaderMap) : List Bytes :=
  match headers.get (ascii "connection") with
  | some value => if value.all isVisibleAscii then (value.splitOn 44).map trim else []
  | none => []

def filterHeaders (headers : HeaderMap) : HeaderMap :=
  headers.filter fun header =>
    !(hopByHop ++ excludeHeaders ++ headers.connectionNames).contains header.1

def filterResponseHeaders (headers : HeaderMap) : HeaderMap := filterHeaders headers

/-- The body is sent in chunks, without a length. -/
def filterResponseHeadersStreaming (headers : HeaderMap) : HeaderMap :=
  (filterHeaders headers).remove contentLength

/-- Every length the headers declare is the length of the body. -/
def Declares (headers : HeaderMap) (body : Bytes) : Prop :=
  ∀ value ∈ headers.values contentLength, parseNat value = some body.length

instance (headers : HeaderMap) (body : Bytes) : Decidable (headers.Declares body) :=
  inferInstanceAs (Decidable (∀ value ∈ headers.values contentLength, parseNat value = some body.length))

variable {headers : HeaderMap} {body : Bytes}

theorem values_filter_subset (p : Bytes × Bytes → Bool) (name : Bytes) :
    values (headers.filter p) name ⊆ headers.values name := by
  apply List.map_subset
  intro header member
  rw [List.mem_filter, List.mem_filter] at member
  exact List.mem_filter.mpr ⟨member.1.1, member.2⟩

theorem Declares.filter (declares : headers.Declares body) (p : Bytes × Bytes → Bool) :
    Declares (headers.filter p) body :=
  fun value member => declares value (values_filter_subset p _ member)

theorem values_remove_self (headers : HeaderMap) (name : Bytes) :
    (headers.remove name).values name = [] := by
  unfold values remove
  rw [List.filter_filter, List.map_eq_nil_iff, List.filter_eq_nil_iff]
  simp

theorem declares_remove (headers : HeaderMap) (body : Bytes) :
    (headers.remove contentLength).Declares body := by
  unfold Declares
  rw [values_remove_self]
  simp

theorem values_insert_self (headers : HeaderMap) (name value : Bytes) :
    (headers.insert name value).values name = [value] := by
  have none_ := values_remove_self headers name
  unfold values at none_
  simp only [values, insert, List.filter_append, List.map_append, none_]
  simp

theorem values_insert_other {name other : Bytes} (different : name ≠ other) (value : Bytes) :
    (headers.insert name value).values other = headers.values other := by
  have kept : (headers.remove name).values other = headers.values other := by
    unfold values remove
    rw [List.filter_filter]
    congr 1
    apply List.filter_congr
    intro header _
    by_cases same : header.1 = other
    · subst same
      simp [different.symm]
    · simp [same]
  unfold insert
  rw [← kept]
  simp [values, different]

theorem Declares.insert (declares : headers.Declares body) {name : Bytes}
    (different : name ≠ contentLength) (value : Bytes) : (headers.insert name value).Declares body := by
  unfold Declares
  rw [values_insert_other different]
  exact declares

end HeaderMap

end TinyLlb
