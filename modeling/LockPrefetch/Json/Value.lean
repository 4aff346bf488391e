import LockPrefetch.Ordered

/-! # JSON values

Objects keep their members in the order in which they were written, and whole numbers are told
apart from numbers with a fraction or an exponent, which are kept as they were written. -/

set_option autoImplicit false

namespace LockPrefetch.Json

/-- A JSON value. -/
inductive Value where
  | null
  | bool (b : Bool)
  | integer (n : Int)
  | real (literal : String)
  | string (text : String)
  | array (items : List Value)
  | object (members : List (String × Value))
deriving Repr

namespace Value

instance : Inhabited Value := ⟨.null⟩

/-- The member of an object by its name. -/
def member? (name : String) : Value → Option Value
  | .object members => Ordered.get? name members
  | _ => none

/-- The text of a string. -/
def string? : Value → Option String
  | .string text => some text
  | _ => none

/-- The number of a whole number. -/
def integer? : Value → Option Int
  | .integer n => some n
  | _ => none

/-- The members of an object. -/
def object? : Value → Option (List (String × Value))
  | .object members => some members
  | _ => none

/-! ## Members in the order of their names -/

/-- Members in the code point order of their names. -/
def byName (members : List (String × Value)) : List (String × Value) :=
  members.mergeSort fun a b => decide (a.1 ≤ b.1)

mutual

/-- A value with the members of every object in the order of their names. -/
def sorted : Value → Value
  | .array items => .array (sortedItems items)
  | .object members => .object (byName (sortedMembers members))
  | value => value

/-- The items of an array, each sorted within. -/
def sortedItems : List Value → List Value
  | [] => []
  | item :: rest => sorted item :: sortedItems rest

/-- The members of an object, each sorted within. -/
def sortedMembers : List (String × Value) → List (String × Value)
  | [] => []
  | (name, value) :: rest => (name, sorted value) :: sortedMembers rest

end

end Value

end LockPrefetch.Json
