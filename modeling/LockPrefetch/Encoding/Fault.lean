/-! # Undecodable bytes

What a reader of encoded text reports: the form it was reading, the octets it could not make
sense of, and why. -/

set_option autoImplicit false

namespace LockPrefetch.Encoding

/-- Why octets do not spell a character. -/
inductive Reason where
  | startByte
  | continuation
  | endOfData
  | truncated
  | beyondUnicode
deriving DecidableEq, Repr

/-- The wording of a reason. -/
def Reason.text : Reason → String
  | .startByte => "invalid start byte"
  | .continuation => "invalid continuation byte"
  | .endOfData => "unexpected end of data"
  | .truncated => "truncated data"
  | .beyondUnicode => "code point not in range(0x110000)"

/-- Octets that could not be decoded: `length` of them from `offset` on, the first of which is
`first`. -/
structure Fault where
  form : String
  first : UInt8
  offset : Nat
  length : Nat
  reason : Reason
deriving DecidableEq, Repr

end LockPrefetch.Encoding
