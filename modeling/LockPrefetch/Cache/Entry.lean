import LockPrefetch.Json.Value

/-! # Entries

What a record of the index says: a key, the digest of the content that was stored under it, a
time, the size of the content and where it came from. A record without a digest says that the
key has been given up. -/

set_option autoImplicit false

namespace LockPrefetch.Cache

/-- A whole number in a record. A truth value counts as one and is kept as it is. -/
inductive Count where
  | number (n : Int)
  | flag (b : Bool)
deriving DecidableEq, Repr

/-- The whole number of a JSON value, if it has one. -/
def Count.ofJson? : Json.Value → Option Count
  | .integer n => some (.number n)
  | .bool b => some (.flag b)
  | _ => none

/-- A whole number as a JSON value. -/
def Count.toJson : Count → Json.Value
  | .number n => .integer n
  | .flag b => .bool b

/-- What a record says. -/
structure Entry where
  key : String
  integrity : Option String
  time : Count
  size : Count
  url : Option String
deriving DecidableEq, Repr

namespace Entry

/-- The digest field of a record: a text, null or missing; anything else spoils the record. -/
def integrityOf? (members : List (String × Json.Value)) : Option (Option String) :=
  match Ordered.get? "integrity" members with
  | none | some .null => some none
  | some (.string text) => some (some text)
  | some _ => none

/-- Reads a record. It needs a key and a time; a size or URL of another type is passed over. -/
def ofRecord? (members : List (String × Json.Value)) : Option Entry := do
  let key ← (← Ordered.get? "key" members).string?
  let time ← Count.ofJson? (← Ordered.get? "time" members)
  let integrity ← integrityOf? members
  let size := ((Ordered.get? "size" members).bind Count.ofJson?).getD (.number 0)
  let url := do (← (← Ordered.get? "metadata" members).member? "url").string?
  return ⟨key, integrity, time, size, url⟩

end Entry

end LockPrefetch.Cache
