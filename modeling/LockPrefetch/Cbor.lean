import LockPrefetch.Encoding.Utf8
import LockPrefetch.Json.Value

/-! # CBOR

The canonical binary form of JSON values: every length and number in the fewest octets, and the
members of an object in the order of their encoded names, shorter ones first. Whole numbers
beyond 64 bits become big numbers. -/

set_option autoImplicit false

namespace LockPrefetch.Cbor

open Json (Value)

/-- The octets of a number that has no fixed width, most significant first. -/
def minimal (n : Nat) : Bytes :=
  if n = 0 then [] else minimal (n / 256) ++ [UInt8.ofNat (n % 256)]
termination_by n
decreasing_by omega

/-- The head of an item: its major type and an argument below `2 ^ 64`. -/
def head (major n : Nat) : Bytes :=
  let first (low : Nat) : UInt8 := UInt8.ofNat (major * 32 + low)
  if n < 24 then [first n]
  else if n < 0x100 then first 24 :: Bytes.bigEndian 1 n
  else if n < 0x10000 then first 25 :: Bytes.bigEndian 2 n
  else if n < 0x100000000 then first 26 :: Bytes.bigEndian 4 n
  else first 27 :: Bytes.bigEndian 8 n

/-- A string of octets. -/
def octets (data : Bytes) : Bytes := head 2 data.length ++ data

/-- A text. -/
def text (t : String) : Bytes :=
  let data := Encoding.Utf8.encode t.toList
  head 3 data.length ++ data

/-- A number that is not negative, with the major type and the tag that its sign calls for. -/
def magnitude (major tag n : Nat) : Bytes :=
  if n < 0x10000000000000000 then head major n else head 6 tag ++ octets (minimal n)

/-- A whole number. -/
def integer : Int → Bytes
  | .ofNat n => magnitude 0 2 n
  | .negSucc n => magnitude 1 3 n

/-- Whether octets come before others, or are the same, by the first place at which they
differ. -/
def octetsLe : Bytes → Bytes → Bool
  | [], _ => true
  | _ :: _, [] => false
  | a :: as, b :: bs => a < b || (a == b && octetsLe as bs)

/-- Whether an encoded name comes before another one, or is the same. -/
def nameLe (a b : Bytes) : Bool :=
  a.length < b.length || (a.length == b.length && octetsLe a b)

mutual

/-- A value. A number that is not whole is written as its text. -/
def encode : Value → Bytes
  | .null => [0xf6]
  | .bool false => [0xf4]
  | .bool true => [0xf5]
  | .integer n => integer n
  | .real literal => text literal
  | .string t => text t
  | .array items => head 4 items.length ++ encodeItems items
  | .object members =>
    let encoded := (encodeMembers members).mergeSort fun a b => nameLe a.1 b.1
    head 5 members.length ++ encoded.flatMap fun member => member.1 ++ member.2

/-- The items of an array, one after another. -/
def encodeItems : List Value → Bytes
  | [] => []
  | item :: rest => encode item ++ encodeItems rest

/-- The names and the values of an object's members. -/
def encodeMembers : List (String × Value) → List (Bytes × Bytes)
  | [] => []
  | (name, value) :: rest => (text name, encode value) :: encodeMembers rest

end

end LockPrefetch.Cbor
