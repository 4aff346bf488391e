import LockPrefetch.Encoding.Utf8

/-! # UTF-16 and UTF-32

Characters in units of two or four octets, in either octet order. A surrogate that is not half
of a pair is shown as the replacement character; what cannot be read at all is an incomplete
unit at the end and a number beyond the range of characters. -/

set_option autoImplicit false

namespace LockPrefetch.Encoding

/-- The order of the octets in a unit. -/
inductive Order where
  | littleFirst
  | bigFirst
deriving DecidableEq, Repr

/-- The ending that a form's name takes for an octet order. -/
def Order.ending : Order → String
  | .littleFirst => "-le"
  | .bigFirst => "-be"

/-- The number that a unit holds. -/
def Order.number (order : Order) (unit : Bytes) : Nat :=
  match order with
  | .littleFirst => Bytes.ofLittleEndian unit
  | .bigFirst => Bytes.ofBigEndian unit

/-- Whether a number is the first half of a surrogate pair. -/
def isHighSurrogate (n : Nat) : Bool := 0xd800 ≤ n && n < 0xdc00

/-- Whether a number is the second half of a surrogate pair. -/
def isLowSurrogate (n : Nat) : Bool := 0xdc00 ≤ n && n < 0xe000

/-- The character that a surrogate pair stands for. -/
def joinSurrogates (high low : Nat) : Char :=
  Char.ofNat (0x10000 + (high - 0xd800) * 0x400 + (low - 0xdc00))

namespace Utf16

/-- Reads the octets from `offset` on. -/
def decodeFrom (order : Order) (offset : Nat) : Bytes → Except Fault (List Char)
  | [] => .ok []
  | [a] => .error ⟨"utf-16" ++ order.ending, a, offset, 1, .truncated⟩
  | a :: b :: rest =>
    let n := order.number [a, b]
    match rest with
    | c :: d :: more =>
      let m := order.number [c, d]
      if isHighSurrogate n && isLowSurrogate m then
        (decodeFrom order (offset + 4) more).map (joinSurrogates n m :: ·)
      else (decodeFrom order (offset + 2) (c :: d :: more)).map (Utf8.character n :: ·)
    | short => (decodeFrom order (offset + 2) short).map (Utf8.character n :: ·)
termination_by data => data.length

end Utf16

namespace Utf32

/-- Reads the octets from `offset` on. -/
def decodeFrom (order : Order) (offset : Nat) : Bytes → Except Fault (List Char)
  | [] => .ok []
  | a :: b :: c :: d :: rest =>
    let n := order.number [a, b, c, d]
    if n < 0x110000 then (decodeFrom order (offset + 4) rest).map (Utf8.character n :: ·)
    else .error ⟨"utf-32" ++ order.ending, a, offset, 4, .beyondUnicode⟩
  | a :: rest => .error ⟨"utf-32" ++ order.ending, a, offset, rest.length + 1, .truncated⟩

end Utf32

end LockPrefetch.Encoding
