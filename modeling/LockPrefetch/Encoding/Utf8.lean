import LockPrefetch.Bytes.Hex
import LockPrefetch.Encoding.Fault

/-! # UTF-8

One to four octets a character. A character that is cut off or broken is reported with the
octets that did belong together: a lead octet that cannot start a character counts one, a
broken sequence counts what was valid of it, and a sequence cut off by the end of the data
reaches up to that end. The three octets that would spell a surrogate are refused, unless the
reader is told to let them pass; they are then shown as the replacement character. -/

set_option autoImplicit false

namespace LockPrefetch.Encoding.Utf8

/-- The octets of a text. -/
def encode (text : List Char) : Bytes := text.flatMap String.utf8EncodeChar

/-- Whether an octet continues a character. -/
def continues (b : UInt8) : Bool := 0x80 ≤ b && b < 0xc0

/-- The six bits that a continuing octet contributes. -/
def tail (b : UInt8) : Nat := b.toNat % 64

/-- What is shown for a surrogate that was let through. -/
def replacement : Char := Char.ofNat 0xfffd

/-- A fault of this encoding. -/
def fault (first : UInt8) (offset length : Nat) (reason : Reason) : Fault :=
  ⟨"utf-8", first, offset, length, reason⟩

/-- Whether the second octet may follow a lead octet of three octets; `pass` admits surrogates. -/
def second3 (pass : Bool) (lead b : UInt8) : Bool :=
  continues b && (lead != 0xe0 || 0xa0 ≤ b) && (pass || lead != 0xed || b < 0xa0)

/-- Whether the second octet may follow a lead octet of four octets. -/
def second4 (lead b : UInt8) : Bool :=
  continues b && (lead != 0xf0 || 0x90 ≤ b) && (lead != 0xf4 || b < 0x90)

/-- The character of a value; a surrogate is shown as the replacement character. -/
def character (n : Nat) : Char :=
  if 0xd800 ≤ n ∧ n < 0xe000 then replacement else Char.ofNat n

/-- What octets begin with: a character, with the number of octets behind its first one, or a
number of octets that spell none. -/
inductive Start where
  | character (c : Char) (behind : Nat)
  | broken (length : Nat) (reason : Reason)

/-- The start of octets with a lead octet of two. -/
def startOfTwo (a : UInt8) : Bytes → Start
  | [] => .broken 1 .endOfData
  | b :: _ =>
    if continues b then .character (Char.ofNat (a.toNat % 32 * 64 + tail b)) 1
    else .broken 1 .continuation

/-- The start of octets with a lead octet of three. -/
def startOfThree (pass : Bool) (a : UInt8) : Bytes → Start
  | [] => .broken 1 .endOfData
  | [b] => if second3 false a b then .broken 2 .endOfData else .broken 1 .continuation
  | b :: c :: _ =>
    if second3 pass a b && continues c then
      .character (character (a.toNat % 16 * 4096 + tail b * 64 + tail c)) 2
    else if second3 false a b then .broken 2 .continuation
    else .broken 1 .continuation

/-- The start of octets with a lead octet of four. -/
def startOfFour (a : UInt8) : Bytes → Start
  | [] => .broken 1 .endOfData
  | [b] => if second4 a b then .broken 2 .endOfData else .broken 1 .continuation
  | [b, c] =>
    if second4 a b then
      if continues c then .broken 3 .endOfData else .broken 2 .continuation
    else .broken 1 .continuation
  | b :: c :: d :: _ =>
    if second4 a b then
      if continues c then
        if continues d then
          .character
            (Char.ofNat (a.toNat % 8 * 262144 + tail b * 4096 + tail c * 64 + tail d)) 3
        else .broken 3 .continuation
      else .broken 2 .continuation
    else .broken 1 .continuation

/-- The start of an octet and those behind it. -/
def start (pass : Bool) (a : UInt8) (rest : Bytes) : Start :=
  if a < 0x80 then .character (Char.ofNat a.toNat) 0
  else if a < 0xc2 then .broken 1 .startByte
  else if a < 0xe0 then startOfTwo a rest
  else if a < 0xf0 then startOfThree pass a rest
  else if a < 0xf5 then startOfFour a rest
  else .broken 1 .startByte

/-- Reads the octets from `offset` on, of which the first `behind` belong to a character that
has been read. -/
def decodeFrom (pass : Bool) (offset behind : Nat) : Bytes → Except Fault (List Char)
  | [] => .ok []
  | a :: rest =>
    match behind with
    | behind + 1 => decodeFrom pass (offset + 1) behind rest
    | 0 =>
      match start pass a rest with
      | .character c behind => (decodeFrom pass (offset + 1) behind rest).map (c :: ·)
      | .broken length reason => .error (fault a offset length reason)

/-- Reads a whole byte string as text. -/
def decode (data : Bytes) : Except Fault (List Char) := decodeFrom false 0 0 data

/-- Reads a whole byte string as text and lets encoded surrogates pass. -/
def decodePassing (data : Bytes) : Except Fault (List Char) := decodeFrom true 0 0 data

end LockPrefetch.Encoding.Utf8
