import LockPrefetch.Bytes.Hex
import LockPrefetch.Text.Printable

/-! # Quoted text

How messages show a text that came from outside: between single quotes, or between double
quotes if it holds single quotes and no double ones. The quote in use, backslashes and
characters that are not printable are escaped. -/

set_option autoImplicit false

namespace LockPrefetch.Text

/-- The lowest `count` hexadecimal digits of a number. -/
def hexDigits (count n : Nat) : List Char :=
  (Hex.digits (Bytes.bigEndian ((count + 1) / 2) n)).drop (count % 2)

/-- A character by its number, in the shortest of three widths. -/
def numericEscape (c : Char) : List Char :=
  if c.toNat < 0x100 then '\\' :: 'x' :: hexDigits 2 c.toNat
  else if c.toNat < 0x10000 then '\\' :: 'u' :: hexDigits 4 c.toNat
  else '\\' :: 'U' :: hexDigits 8 c.toNat

/-- A character as it stands between quotes of the given kind. -/
def quotedChar (quote c : Char) : List Char :=
  if c = quote ∨ c = '\\' then ['\\', c]
  else if c = '\t' then ['\\', 't']
  else if c = '\n' then ['\\', 'n']
  else if c = '\r' then ['\\', 'r']
  else if isPrintable c then [c]
  else numericEscape c

/-- The quote that a text is put between. -/
def quoteFor (text : List Char) : Char :=
  if text.contains '\'' && !text.contains '"' then '"' else '\''

/-- A text between quotes. -/
def quoted (text : String) : String :=
  let quote := quoteFor text.toList
  String.ofList (quote :: text.toList.flatMap (quotedChar quote) ++ [quote])

/-- An octet as it stands between quotes of the given kind: as ASCII if it is printable. -/
def quotedOctet (quote : Char) (b : UInt8) : List Char :=
  let c := Char.ofNat b.toNat
  if b < 0x80 then quotedChar quote c else numericEscape c

/-- Octets between quotes, with a `b` in front. -/
def quotedOctets (data : Bytes) : String :=
  let quote := quoteFor (data.map fun b => Char.ofNat b.toNat)
  String.ofList ('b' :: quote :: data.flatMap (quotedOctet quote) ++ [quote])

end LockPrefetch.Text
