import LockPrefetch.Bytes.Hex
import LockPrefetch.Json.Value
import LockPrefetch.Text.Number
import LockPrefetch.Text.Quoted

/-! # Writing JSON

One writer serves three layouts: compact, on one line with gaps, and indented. A layout also
says whether characters beyond ASCII are escaped. -/

set_option autoImplicit false

namespace LockPrefetch.Json

/-- How a value is laid out. -/
structure Layout where
  /-- Whether everything outside the printable ASCII characters is escaped. -/
  asciiOnly : Bool
  /-- The spaces that one level of nesting indents by; without them all is on one line. -/
  indent : Option Nat
  /-- What stands between two items on one line. -/
  itemGap : List Char
  /-- What stands between a name and its value. -/
  nameGap : List Char

/-- No white space at all. -/
def Layout.compact : Layout := ⟨false, none, [','], [':']⟩

/-- One line, with a space behind commas and colons. -/
def Layout.line : Layout := ⟨true, none, [',', ' '], [':', ' ']⟩

/-- One item to a line, two spaces for a level. -/
def Layout.indented : Layout := ⟨true, some 2, [','], [':', ' ']⟩

/-- A sixteen-bit unit as an escape. -/
def unitEscape (n : Nat) : List Char := '\\' :: 'u' :: Text.hexDigits 4 n

/-- A character by its sixteen-bit units, two of them beyond the basic plane. -/
def characterEscape (c : Char) : List Char :=
  if c.toNat < 0x10000 then unitEscape c.toNat
  else
    unitEscape (0xd800 + (c.toNat - 0x10000) / 0x400) ++
      unitEscape (0xdc00 + (c.toNat - 0x10000) % 0x400)

/-- A character as it stands in a string. -/
def escaped (asciiOnly : Bool) (c : Char) : List Char :=
  if c = '"' then ['\\', '"']
  else if c = '\\' then ['\\', '\\']
  else if c = '\n' then ['\\', 'n']
  else if c = '\r' then ['\\', 'r']
  else if c = '\t' then ['\\', 't']
  else if c.toNat = 8 then ['\\', 'b']
  else if c.toNat = 12 then ['\\', 'f']
  else if c.toNat < 0x20 then unitEscape c.toNat
  else if asciiOnly ∧ 0x7f ≤ c.toNat then characterEscape c
  else [c]

/-- A text as a string between quotes. -/
def writeString (asciiOnly : Bool) (text : String) : List Char :=
  '"' :: text.toList.flatMap (escaped asciiOnly) ++ ['"']

/-- The start of a new line at a depth of nesting, if the layout has lines. -/
def Layout.newLine (layout : Layout) (depth : Nat) : List Char :=
  match layout.indent with
  | none => []
  | some width => '\n' :: List.replicate (width * depth) ' '

mutual

/-- A value at a depth of nesting. -/
def write (layout : Layout) (depth : Nat) : Value → List Char
  | .null => "null".toList
  | .bool true => "true".toList
  | .bool false => "false".toList
  | .integer n => Text.signedDecimal n
  | .real literal => literal.toList
  | .string text => writeString layout.asciiOnly text
  | .array [] => ['[', ']']
  | .array (item :: rest) =>
    '[' :: layout.newLine (depth + 1) ++ write layout (depth + 1) item ++
      writeItems layout (depth + 1) rest ++ layout.newLine depth ++ [']']
  | .object [] => ['\x7b', '\x7d']
  | .object ((name, value) :: rest) =>
    '\x7b' :: layout.newLine (depth + 1) ++ writeString layout.asciiOnly name ++
      layout.nameGap ++ write layout (depth + 1) value ++
      writeMembers layout (depth + 1) rest ++ layout.newLine depth ++ ['\x7d']

/-- The items behind the first one, each led by a comma. -/
def writeItems (layout : Layout) (depth : Nat) : List Value → List Char
  | [] => []
  | item :: rest =>
    layout.itemGap ++ layout.newLine depth ++ write layout depth item ++
      writeItems layout depth rest

/-- The members behind the first one, each led by a comma. -/
def writeMembers (layout : Layout) (depth : Nat) : List (String × Value) → List Char
  | [] => []
  | (name, value) :: rest =>
    layout.itemGap ++ layout.newLine depth ++ writeString layout.asciiOnly name ++
      layout.nameGap ++ write layout depth value ++ writeMembers layout depth rest

end

/-- A value as text. -/
def Value.render (layout : Layout) (value : Value) : String :=
  String.ofList (write layout 0 value)

end LockPrefetch.Json
