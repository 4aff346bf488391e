import LockPrefetch.Encoding.Wide

/-! # Which encoding a document is in

A document of unknown encoding announces it by a byte order mark or, since its first two
characters are ASCII, by where the zero octets stand among the first four. -/

set_option autoImplicit false

namespace LockPrefetch.Encoding

/-- An encoding of a document, with the number of octets its byte order mark takes. -/
inductive Form where
  | utf8 (mark : Nat)
  | utf16 (order : Order) (mark : Nat)
  | utf32 (order : Order) (mark : Nat)
deriving DecidableEq, Repr

/-- The encoding that zero octets near the start give away, in a document without a mark. -/
def ofZeros : Bytes → Form
  | a :: b :: c :: d :: _ =>
    if a = 0 then if b = 0 then .utf32 .bigFirst 0 else .utf16 .bigFirst 0
    else if b = 0 then
      if c = 0 ∧ d = 0 then .utf32 .littleFirst 0 else .utf16 .littleFirst 0
    else .utf8 0
  | [a, b] =>
    if a = 0 then .utf16 .bigFirst 0
    else if b = 0 then .utf16 .littleFirst 0
    else .utf8 0
  | _ => .utf8 0

/-- The encoding of a document. The marks of UTF-32 come first, because one of them begins
with a mark of UTF-16. -/
def detect : Bytes → Form
  | 0x00 :: 0x00 :: 0xfe :: 0xff :: _ => .utf32 .bigFirst 4
  | 0xff :: 0xfe :: 0x00 :: 0x00 :: _ => .utf32 .littleFirst 4
  | 0xfe :: 0xff :: _ => .utf16 .bigFirst 2
  | 0xff :: 0xfe :: _ => .utf16 .littleFirst 2
  | 0xef :: 0xbb :: 0xbf :: _ => .utf8 3
  | data => ofZeros data

/-- The text of a document, without its byte order mark. Offsets in a fault count from the
start of the octets, except that in UTF-8 they count from behind the mark. -/
def decode (data : Bytes) : Except Fault (List Char) :=
  match detect data with
  | .utf8 mark => Utf8.decodePassing (data.drop mark)
  | .utf16 order mark => Utf16.decodeFrom order mark (data.drop mark)
  | .utf32 order mark => Utf32.decodeFrom order mark (data.drop mark)

/-- The wording of a fault: the form, the octets and their place, the reason. -/
def Fault.message (fault : Fault) : String :=
  let what :=
    if fault.length = 1 then
      "byte 0x" ++ Hex.encode [fault.first] ++ " in position " ++ toString fault.offset
    else
      "bytes in position " ++ toString fault.offset ++ "-" ++
        toString (fault.offset + fault.length - 1)
  "'" ++ fault.form ++ "' codec can't decode " ++ what ++ ": " ++ fault.reason.text

end LockPrefetch.Encoding
