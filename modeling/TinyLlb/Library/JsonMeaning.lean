import Mathlib.Data.List.Induction
import Mathlib.Data.Rat.Encodable
import Mathlib.Logic.Equiv.List
import Mathlib.Logic.Function.Basic
import Mathlib.Tactic.DeriveCountable
import TinyLlb.Library.Json

/-! # What a JSON value means

Two lists of members are the same object when they have the same member under every
name. The meaning of a value forgets the order of the members and those that a later
one has replaced.
-/

/-- A value whose objects are maps. -/
inductive JsonValue where
  | null
  | bool (value : Bool)
  | number (value : JsonNumber)
  | string (value : String)
  | array (items : List JsonValue)
  | object (members : String → Option JsonValue)

/-- The member of that name; anything but an object has none. -/
def JsonValue.member (key : String) : JsonValue → Option JsonValue
  | object members => members key
  | _ => none

namespace Json

mutual

def meaning : Json → JsonValue
  | null => .null
  | bool value => .bool value
  | number value => .number value
  | string value => .string value
  | array items => .array (meanings items)
  | object members => .object (memberMeanings members)

def meanings : List Json → List JsonValue
  | [] => []
  | item :: items => item.meaning :: meanings items

/-- The latest member of a name counts. -/
def memberMeanings : List (String × Json) → String → Option JsonValue
  | [], _ => none
  | (name, value) :: members, key =>
      match memberMeanings members key with
      | some later => some later
      | none => if name = key then some value.meaning else none

end

theorem memberMeanings_append (members : List (String × Json)) (name : String) (value : Json) :
    memberMeanings (members ++ [(name, value)]) =
      Function.update (memberMeanings members) name (some value.meaning) := by
  induction members with
  | nil =>
      funext key
      by_cases same : name = key
      · simp [memberMeanings, same]
      · simp [memberMeanings, same, Ne.symm same]
  | cons first members ih =>
      funext key
      rw [List.cons_append, memberMeanings, ih]
      by_cases same : key = name
      · simp [same]
      · simp [memberMeanings, same]

theorem meaning_get (value : Json) (key : String) :
    (value.get key).map meaning = value.meaning.member key := by
  cases value with
  | object members =>
      simp only [get, meaning, JsonValue.member]
      induction members using List.reverseRecOn with
      | nil => rfl
      | append_singleton members last ih =>
          rw [memberMeanings_append]
          by_cases same : last.1 = key
          · simp [same]
          · simpa [same, Ne.symm same] using ih
  | null | bool | number | string | array => rfl

theorem meaning_eq_bool {value : Json} {b : Bool} : value.meaning = .bool b ↔ value = .bool b := by
  cases value <;> simp [meaning]

theorem asBool_eq_some {value : Json} {b : Bool} : value.asBool = some b ↔ value.meaning = .bool b := by
  rw [meaning_eq_bool]
  cases value <;> simp [asBool]

theorem get_bind_asBool {value : Json} {key : String} {b : Bool} :
    (value.get key).bind asBool = some b ↔ value.meaning.member key = some (.bool b) := by
  rw [← meaning_get]
  cases value.get key with
  | none => simp
  | some member => simp [asBool_eq_some]

theorem meaning_eq_object {value : Json} {members : String → Option JsonValue}
    (same : value.meaning = .object members) :
    ∃ listed, value = .object listed ∧ memberMeanings listed = members := by
  cases value with
  | object listed => exact ⟨listed, rfl, JsonValue.object.inj same⟩
  | null | bool | number | string | array => simp [meaning] at same

/-- The leaves and the openings of a value, from left to right. -/
inductive Token where
  | null
  | bool (value : Bool)
  | number (value : JsonNumber)
  | string (value : String)
  | array (items : Nat)
  | object (members : Nat)

mutual

def tokens : Json → List Token
  | null => [.null]
  | bool value => [.bool value]
  | number value => [.number value]
  | string value => [.string value]
  | array items => .array items.length :: itemTokens items
  | object members => .object members.length :: memberTokens members

def itemTokens : List Json → List Token
  | [] => []
  | item :: items => item.tokens ++ itemTokens items

def memberTokens : List (String × Json) → List Token
  | [] => []
  | (name, value) :: members => .string name :: (value.tokens ++ memberTokens members)

end

mutual

/-- The tokens tell where a value ends. -/
theorem tokens_append_inj (v w : Json) {rest rest' : List Token}
    (same : v.tokens ++ rest = w.tokens ++ rest') : v = w ∧ rest = rest' := by
  match v with
  | null | bool _ | number _ | string _ => cases w <;> simp_all [tokens]
  | array items =>
      cases w with
      | array items' =>
          simp only [tokens, List.cons_append, List.cons.injEq, Token.array.injEq] at same
          obtain ⟨rfl, same'⟩ := itemTokens_append_inj items items' same.1 same.2
          exact ⟨rfl, same'⟩
      | null | bool | number | string | object => simp [tokens] at same
  | object members =>
      cases w with
      | object members' =>
          simp only [tokens, List.cons_append, List.cons.injEq, Token.object.injEq] at same
          obtain ⟨rfl, same'⟩ := memberTokens_append_inj members members' same.1 same.2
          exact ⟨rfl, same'⟩
      | null | bool | number | string | array => simp [tokens] at same

theorem itemTokens_append_inj (items items' : List Json) {rest rest' : List Token}
    (long : items.length = items'.length)
    (same : itemTokens items ++ rest = itemTokens items' ++ rest') : items = items' ∧ rest = rest' := by
  match items, items' with
  | [], [] => exact ⟨rfl, same⟩
  | item :: items, item' :: items' =>
      simp only [itemTokens, List.append_assoc] at same
      obtain ⟨rfl, later⟩ := tokens_append_inj item item' same
      obtain ⟨rfl, after⟩ := itemTokens_append_inj items items' (Nat.succ.inj long) later
      exact ⟨rfl, after⟩

theorem memberTokens_append_inj (members members' : List (String × Json)) {rest rest' : List Token}
    (long : members.length = members'.length)
    (same : memberTokens members ++ rest = memberTokens members' ++ rest') :
    members = members' ∧ rest = rest' := by
  match members, members' with
  | [], [] => exact ⟨rfl, same⟩
  | (name, value) :: members, (name', value') :: members' =>
      simp only [memberTokens, List.cons_append, List.append_assoc, List.cons.injEq,
        Token.string.injEq] at same
      obtain ⟨rfl, inside⟩ := same
      obtain ⟨rfl, later⟩ := tokens_append_inj value value' inside
      obtain ⟨rfl, after⟩ := memberTokens_append_inj members members' (Nat.succ.inj long) later
      exact ⟨rfl, after⟩

end

theorem tokens_injective : Function.Injective tokens := by
  intro v w same
  have whole : v.tokens ++ [] = w.tokens ++ [] := by rw [same]
  exact (tokens_append_inj v w whole).1

instance : Countable Char :=
  Function.Injective.countable (f := Char.toNat) fun _ _ => Char.toNat_inj.mp

instance : Countable String :=
  Function.Injective.countable (f := String.toList) fun _ _ => String.toList_inj.mp

deriving instance Countable for JsonNumber

deriving instance Countable for Token

instance : Countable Json := tokens_injective.countable

instance : Nonempty Json := ⟨null⟩

end Json
