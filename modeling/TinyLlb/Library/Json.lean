import Mathlib.Algebra.Order.Ring.Unbundled.Rat

/-! # JSON values

Values as a reader returns them, with the accessors that pick a member or convert
a leaf. The members of an object are kept in the order in which they were
inserted; a later one replaces an earlier one of the same name. Bytes are turned
into values by a reader that is left open.
-/

/-- Integers that fit a machine word stay exact; everything else is a float. -/
inductive JsonNumber where
  | posInt (value : Nat)
  | negInt (value : Int)
  | float (value : ℚ)
  deriving DecidableEq

inductive Json where
  | null
  | bool (value : Bool)
  | number (value : JsonNumber)
  | string (value : String)
  | array (items : List Json)
  | object (members : List (String × Json))

namespace JsonNumber

/-- As a signed 64-bit integer, where it is one. -/
def asI64 : JsonNumber → Option Int
  | posInt value => if value ≤ 9223372036854775807 then some value else none
  | negInt value => some value
  | float _ => none

/-- The number in exact arithmetic. -/
def toRat : JsonNumber → ℚ
  | posInt value => value
  | negInt value => value
  | float value => value

/-- As a float, exactly where it is one. -/
def asFloat? : JsonNumber → Option ℚ
  | float value => some value
  | _ => none

end JsonNumber

namespace Json

/-- The latest member of that name; anything but an object has none. -/
def get (key : String) : Json → Option Json
  | object members => (members.findRev? fun member => member.1 == key).map Prod.snd
  | _ => none

/-- `value[key] = member`: an object gets the member and a null becomes an object;
    nothing else can be assigned to. -/
def set (value : Json) (key : String) (member : Json) : Option Json :=
  match value with
  | object members => some (object (members ++ [(key, member)]))
  | null => some (object [(key, member)])
  | _ => none

/-- Members can be assigned to objects, and to null. -/
def isAssignable : Json → Bool
  | object _ | null => true
  | _ => false

def asArray : Json → Option (List Json)
  | array items => some items
  | _ => none

def asObject : Json → Option (List (String × Json))
  | object members => some members
  | _ => none

def asBool : Json → Option Bool
  | bool value => some value
  | _ => none

def asStr : Json → Option String
  | string value => some value
  | _ => none

def asI64 : Json → Option Int
  | number value => value.asI64
  | _ => none

/-- A non-empty array. -/
def isFilledArray : Json → Bool
  | array items => !items.isEmpty
  | _ => false

/-- A non-empty object. -/
def isFilledObject : Json → Bool
  | object members => !members.isEmpty
  | _ => false

/-- A non-empty string. -/
def isFilledString : Json → Bool
  | string value => value != ""
  | _ => false

theorem isSome_set (value : Json) (key : String) (member : Json) :
    (value.set key member).isSome = value.isAssignable := by
  cases value <;> rfl

theorem get_of_set {value changed member : Json} {key : String}
    (assigned : value.set key member = some changed) :
    changed.get key = some member ∧ ∀ name, name ≠ key → changed.get name = value.get name := by
  cases value with
  | object members =>
      obtain rfl := Option.some.inj assigned
      constructor
      · simp [get]
      · intro name other
        simp [get, other.symm]
  | null =>
      obtain rfl := Option.some.inj assigned
      constructor
      · simp [get]
      · intro name other
        simp [get, other.symm]
  | bool | number | string | array => cases assigned

end Json
