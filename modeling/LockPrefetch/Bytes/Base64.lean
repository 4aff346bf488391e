import LockPrefetch.Bytes.Basic

/-! # Base64

Six bits a digit over the standard alphabet, padded with `=` to groups of four digits. There
are two readers. The strict one is for digests: digits, then the padding their number calls
for, then nothing. The lenient one is for inline data: it passes over foreign characters and
stops at the padding that completes a group. Both ignore bits left over in the last digit. -/

set_option autoImplicit false

namespace LockPrefetch.Base64

/-- The digit of a six-bit value. -/
def digit (n : Nat) : Char :=
  if n < 26 then Char.ofNat (65 + n)
  else if n < 52 then Char.ofNat (71 + n)
  else if n < 62 then Char.ofNat (n - 4)
  else if n = 62 then '+'
  else '/'

/-- The six-bit value of a digit. -/
def value? (c : Char) : Option Nat :=
  if 'A' ≤ c ∧ c ≤ 'Z' then some (c.toNat - 65)
  else if 'a' ≤ c ∧ c ≤ 'z' then some (c.toNat - 71)
  else if '0' ≤ c ∧ c ≤ '9' then some (c.toNat + 4)
  else if c = '+' then some 62
  else if c = '/' then some 63
  else none

/-- The six-bit values of a byte string: three octets to four values, one or two octets left
over to two or three values. -/
def toValues : Bytes → List Nat
  | a :: b :: c :: rest =>
    a.toNat / 4 :: (a.toNat % 4 * 16 + b.toNat / 16) :: (b.toNat % 16 * 4 + c.toNat / 64) ::
      c.toNat % 64 :: toValues rest
  | [a, b] => [a.toNat / 4, a.toNat % 4 * 16 + b.toNat / 16, b.toNat % 16 * 4]
  | [a] => [a.toNat / 4, a.toNat % 4 * 16]
  | [] => []

/-- The octets that six-bit values spell: four values to three octets, and one or two octets
from the two or three values of a short last group. -/
def ofValues : List Nat → Bytes
  | a :: b :: c :: d :: rest =>
    UInt8.ofNat (a * 4 + b / 16) :: UInt8.ofNat (b % 16 * 16 + c / 4) ::
      UInt8.ofNat (c % 4 * 64 + d) :: ofValues rest
  | [a, b, c] => [UInt8.ofNat (a * 4 + b / 16), UInt8.ofNat (b % 16 * 16 + c / 4)]
  | [a, b] => [UInt8.ofNat (a * 4 + b / 16)]
  | _ => []

/-- The padding that fills up the last group of `count` digits. -/
def padding (count : Nat) : List Char := List.replicate ((4 - count % 4) % 4) '='

/-- The base64 text of a byte string. -/
def digits (data : Bytes) : List Char :=
  (toValues data).map digit ++ padding (toValues data).length

/-- A byte string as base64 text. -/
def encode (data : Bytes) : String := String.ofList (digits data)

/-! ## The strict reader -/

/-- Whether `pads` padding characters may follow `count` digits. A short group of two or three
digits is filled up to four exactly; after whole groups padding is tolerated, but text cannot
begin with it. -/
def padsFit (count pads : Nat) : Bool :=
  match count % 4 with
  | 0 => count != 0 || pads == 0
  | 2 => pads == 2
  | 3 => pads == 1
  | _ => false

/-- Reads base64 text made of digits and fitting padding alone. -/
def decode? (text : List Char) : Option Bytes := do
  let values ← (text.takeWhile (· != '=')).mapM value?
  let pads := text.dropWhile (· != '=')
  if pads.all (· == '=') && padsFit values.length pads.length then
    return ofValues values
  else
    none

/-! ## The lenient reader -/

/-- Why inline data cannot be read: the last group holds a single digit, or is not filled up
with padding. -/
inductive Fault where
  | loneDigit (count : Nat)
  | missingPadding
deriving DecidableEq, Repr

/-- The six-bit values up to the end of the data. `count` digits have been read before, and
`pads` padding characters since the last of them in a short group; padding that fills the group
up to four ends the data. -/
def gather (count pads : Nat) : List Char → Except Fault (List Nat)
  | [] =>
    match count % 4 with
    | 0 => .ok []
    | 1 => .error (.loneDigit count)
    | _ => .error .missingPadding
  | c :: rest =>
    if c = '=' then
      if 2 ≤ count % 4 then
        if 4 ≤ count % 4 + pads + 1 then .ok [] else gather count (pads + 1) rest
      else gather count pads rest
    else
      match value? c with
      | some v => (gather (count + 1) 0 rest).map (v :: ·)
      | none => gather count pads rest

/-- Reads inline data, passing over characters outside the alphabet. -/
def decodeLenient (text : List Char) : Except Fault Bytes :=
  (gather 0 0 text).map ofValues

namespace Fault

/-- The wording of a refusal. -/
def message : Fault → String
  | .loneDigit count =>
    "Invalid base64-encoded string: number of data characters (" ++ toString count ++
      ") cannot be 1 more than a multiple of 4"
  | .missingPadding => "Incorrect padding"

end Fault

end LockPrefetch.Base64
