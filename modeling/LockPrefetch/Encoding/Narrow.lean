import LockPrefetch.Bytes.Basic
import LockPrefetch.Text.Quoted

/-! # One octet a character

Encodings that give an octet to each of the first code points and refuse all others. What is
refused is the first run of characters that have no octet. -/

set_option autoImplicit false

namespace LockPrefetch.Encoding

/-- An encoding by its name and the first code point that it lacks. -/
structure Narrow where
  name : String
  limit : Nat
deriving DecidableEq, Repr

namespace Narrow

/-- The encoding of the first 128 code points. -/
def ascii : Narrow := ⟨"ascii", 128⟩

/-- The encoding of the first 256 code points. -/
def latin1 : Narrow := ⟨"latin-1", 256⟩

/-- Characters that an encoding lacks, from `offset` on. -/
structure Fault where
  form : Narrow
  offset : Nat
  run : List Char
deriving DecidableEq, Repr

/-- Where the characters stand, and which one it is if it is a single one. -/
def Fault.place (fault : Fault) : String :=
  match fault.run with
  | [c] =>
    "character '" ++ String.ofList (Text.numericEscape c) ++ "' in position " ++
      toString fault.offset
  | run =>
    "characters in position " ++ toString fault.offset ++ "-" ++
      toString (fault.offset + run.length - 1)

/-- The wording of a fault. -/
def Fault.message (fault : Fault) : String :=
  "'" ++ fault.form.name ++ "' codec can't encode " ++ fault.place ++
    ": ordinal not in range(" ++ toString fault.form.limit ++ ")"

/-- Whether an encoding has a character. -/
def has (form : Narrow) (c : Char) : Bool := c.toNat < form.limit

/-- The octets of a text. -/
def encode (form : Narrow) (text : List Char) : Except Fault Bytes :=
  match text.dropWhile form.has with
  | [] => .ok (text.map fun c => UInt8.ofNat c.toNat)
  | rest =>
    .error ⟨form, text.length - rest.length, rest.takeWhile (!form.has ·)⟩

end Narrow

end LockPrefetch.Encoding
