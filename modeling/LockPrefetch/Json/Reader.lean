import LockPrefetch.Encoding.Wide
import LockPrefetch.Json.Value
import LockPrefetch.Text.Decimal
import LockPrefetch.Text.Number

/-! # Reading JSON

A recursive reader over the characters of a document. It takes the constants `NaN`, `Infinity`
and `-Infinity` for numbers. A document that is not JSON is refused at the first character at
which that shows; a string is refused at its opening quote if it never ends. A member that
repeats a name replaces the earlier value and keeps its place. -/

set_option autoImplicit false

namespace LockPrefetch.Json

/-! ## Refusals -/

/-- What is wrong at the place where a document stops being JSON. -/
inductive Complaint where
  | value
  | name
  | colon
  | comma
  | unterminated
  | control
  | badEscape
  | badUnit
  | extra
  | byteOrderMark
deriving DecidableEq, Repr

/-- The wording of a complaint. -/
def Complaint.text : Complaint → String
  | .value => "Expecting value"
  | .name => "Expecting property name enclosed in double quotes"
  | .colon => "Expecting ':' delimiter"
  | .comma => "Expecting ',' delimiter"
  | .unterminated => "Unterminated string starting at"
  | .control => "Invalid control character at"
  | .badEscape => "Invalid \\escape"
  | .badUnit => "Invalid \\uXXXX escape"
  | .extra => "Extra data"
  | .byteOrderMark => "Unexpected UTF-8 BOM (decode using utf-8-sig)"

/-- A refusal in the middle of a document: a complaint about the place that has `remaining`
characters from it to the end, or a whole number of too many digits. -/
inductive Stop where
  | complaint (what : Complaint) (remaining : Nat)
  | oversized (digits : Nat)
deriving DecidableEq, Repr

/-! ## White space, constants and numbers -/

/-- Whether a character may stand between tokens. -/
def isGap (c : Char) : Bool := c == ' ' || c == '\t' || c == '\n' || c == '\r'

/-- The characters behind white space. -/
def skip (s : List Char) : List Char := s.dropWhile isGap

/-- The constants and the values that they stand for. -/
def constants : List (List Char × Value) :=
  [("null".toList, .null), ("true".toList, .bool true), ("false".toList, .bool false),
   ("NaN".toList, .real "NaN"), ("Infinity".toList, .real "Infinity"),
   ("-Infinity".toList, .real "-Infinity")]

/-- A constant at the start of some characters. -/
def constant? (s : List Char) : Option (Value × List Char) :=
  match constants.find? fun entry => entry.1.isPrefixOf s with
  | some (word, value) => some (value, s.drop word.length)
  | none => none

/-- The digits at the start of some characters: a single zero, or digits that begin with
another one. -/
def wholePart (s : List Char) : List Char × List Char :=
  match s with
  | '0' :: rest => (['0'], rest)
  | s => (s.takeWhile Char.isDigit, s.dropWhile Char.isDigit)

/-- A point and digits. -/
def fractionPart (s : List Char) : List Char × List Char :=
  match s with
  | '.' :: rest =>
    if (rest.head?.any Char.isDigit) then
      ('.' :: rest.takeWhile Char.isDigit, rest.dropWhile Char.isDigit)
    else ([], s)
  | s => ([], s)

/-- A sign, if there is one. -/
def signPart (s : List Char) : List Char × List Char :=
  match s with
  | '+' :: rest => (['+'], rest)
  | '-' :: rest => (['-'], rest)
  | s => ([], s)

/-- An `e`, a sign and digits; nothing if there are no digits. -/
def exponentPart (s : List Char) : List Char × List Char :=
  match s with
  | [] => ([], s)
  | e :: rest =>
    if e = 'e' ∨ e = 'E' then
      let (sign, digits) := signPart rest
      if (digits.head?.any Char.isDigit) then
        (e :: sign ++ digits.takeWhile Char.isDigit, digits.dropWhile Char.isDigit)
      else ([], s)
    else ([], s)

/-- A minus sign, if there is one. -/
def minusPart (s : List Char) : List Char × List Char :=
  match s with
  | '-' :: rest => (['-'], rest)
  | s => ([], s)

/-- Reads a number. -/
def readNumber (s : List Char) : Except Stop (Value × List Char) :=
  let (minus, body) := minusPart s
  let (whole, rest) := wholePart body
  if whole.isEmpty then .error (.complaint .value s.length)
  else
    let (fraction, rest) := fractionPart rest
    let (exponent, rest) := exponentPart rest
    if fraction.isEmpty && exponent.isEmpty then
      if Text.maxDigits < whole.length then .error (.oversized whole.length)
      else
        let n : Int := Text.ofDecimal whole
        .ok (.integer (if minus.isEmpty then n else -n), rest)
    else .ok (.real (String.ofList (minus ++ whole ++ fraction ++ exponent)), rest)

/-! ## Strings -/

/-- The character that a short escape stands for. -/
def shortEscape? : Char → Option Char
  | '"' => some '"'
  | '\\' => some '\\'
  | '/' => some '/'
  | 'b' => some (Char.ofNat 8)
  | 'f' => some (Char.ofNat 12)
  | 'n' => some '\n'
  | 'r' => some '\r'
  | 't' => some '\t'
  | _ => none

/-- The number that four hexadecimal digits stand for. -/
def unit? (a b c d : Char) : Option Nat := Hex.number? [a, b, c, d]

/-- Puts a number in front of what a step yields. -/
def withUnit (n : Nat) (step : Except Stop (List Nat × List Char)) :
    Except Stop (List Nat × List Char) :=
  step.map fun (units, rest) => (n :: units, rest)

/-- Reads a string behind its opening quote, at which `opening` characters remained. A
character is given by its number, an escaped unit by the unit, which may be a surrogate. -/
def readUnits (opening : Nat) : List Char → Except Stop (List Nat × List Char)
  | [] => .error (.complaint .unterminated opening)
  | '"' :: rest => .ok ([], rest)
  | '\\' :: 'u' :: a :: b :: c :: d :: rest =>
    if rest.isEmpty then .error (.complaint .badUnit 5)
    else
      match unit? a b c d with
      | some n => withUnit n (readUnits opening rest)
      | none => .error (.complaint .badUnit (rest.length + 5))
  | '\\' :: 'u' :: rest => .error (.complaint .badUnit (rest.length + 1))
  | ['\\'] => .error (.complaint .unterminated opening)
  | '\\' :: c :: rest =>
    match shortEscape? c with
    | some escaped => withUnit escaped.toNat (readUnits opening rest)
    | none => .error (.complaint .badEscape (rest.length + 2))
  | c :: rest =>
    if c.toNat < 0x20 then .error (.complaint .control (rest.length + 1))
    else withUnit c.toNat (readUnits opening rest)

/-- The text that units spell: two halves of a surrogate pair become one character, and a
surrogate that is not half of a pair is shown as the replacement character. -/
def ofUnits : List Nat → List Char
  | [] => []
  | [n] => [Encoding.Utf8.character n]
  | n :: m :: rest =>
    if Encoding.isHighSurrogate n && Encoding.isLowSurrogate m then
      Encoding.joinSurrogates n m :: ofUnits rest
    else Encoding.Utf8.character n :: ofUnits (m :: rest)

/-- Reads a string behind its opening quote. -/
def readString (opening : Nat) (s : List Char) : Except Stop (String × List Char) :=
  (readUnits opening s).map fun (units, rest) => (String.ofList (ofUnits units), rest)

/-! ## Values -/

mutual

/-- Reads a value. `fuel` bounds the depth of the recursion; the reader of whole documents
supplies more than any document of its length can use. -/
def readValue (fuel : Nat) (s : List Char) : Except Stop (Value × List Char) :=
  match fuel with
  | 0 => .error (.complaint .value s.length)
  | fuel + 1 =>
    match s with
    | '"' :: rest => do
      let (text, rest) ← readString s.length rest
      return (.string text, rest)
    | '[' :: rest =>
      match skip rest with
      | ']' :: rest => .ok (.array [], rest)
      | start => do
        let (items, rest) ← readItems fuel start
        return (.array items, rest)
    | '\x7b' :: rest =>
      match skip rest with
      | '\x7d' :: rest => .ok (.object [], rest)
      | start => do
        let (members, rest) ← readMembers fuel start
        return (.object (Ordered.ofPairs members), rest)
    | s =>
      match constant? s with
      | some found => .ok found
      | none => readNumber s

/-- Reads the items of an array, of which there is at least one, and the closing bracket. -/
def readItems (fuel : Nat) (s : List Char) : Except Stop (List Value × List Char) :=
  match fuel with
  | 0 => .error (.complaint .value s.length)
  | fuel + 1 => do
    let (item, rest) ← readValue fuel s
    match skip rest with
    | ']' :: rest => return ([item], rest)
    | ',' :: rest =>
      let (items, rest) ← readItems fuel (skip rest)
      return (item :: items, rest)
    | rest => .error (.complaint .comma rest.length)

/-- Reads the members of an object, of which there is at least one, and the closing brace. -/
def readMembers (fuel : Nat) (s : List Char) : Except Stop (List (String × Value) × List Char) :=
  match fuel with
  | 0 => .error (.complaint .value s.length)
  | fuel + 1 =>
    match s with
    | '"' :: rest => do
      let (name, rest) ← readString s.length rest
      match skip rest with
      | ':' :: rest =>
        let (value, rest) ← readValue fuel (skip rest)
        match skip rest with
        | '\x7d' :: rest => return ([(name, value)], rest)
        | ',' :: rest =>
          let (members, rest) ← readMembers fuel (skip rest)
          return ((name, value) :: members, rest)
        | rest => .error (.complaint .comma rest.length)
      | rest => .error (.complaint .colon rest.length)
    | s => .error (.complaint .name s.length)

end

/-- Reads a document: one value with white space around it. -/
def readDocument (s : List Char) : Except Stop Value := do
  let (value, rest) ← readValue (2 * s.length + 2) (skip s)
  match skip rest with
  | [] => return value
  | rest => .error (.complaint .extra rest.length)

/-! ## Places -/

/-- A place in a document: characters before it, and its line and column, counted from one. -/
structure Place where
  index : Nat
  line : Nat
  column : Nat
deriving DecidableEq, Repr

/-- The place behind some characters. -/
def Place.behind (before : List Char) : Place where
  index := before.length
  line := before.count '\n' + 1
  column := (before.reverse.takeWhile (· != '\n')).length + 1

/-- Why a text is not a JSON document. -/
inductive Fault where
  | malformed (what : Complaint) (place : Place)
  | oversized (digits : Nat)
deriving DecidableEq, Repr

/-- A refusal with its place in a document. -/
def Stop.locate (document : List Char) : Stop → Fault
  | .complaint what remaining =>
    .malformed what (Place.behind (document.take (document.length - remaining)))
  | .oversized digits => .oversized digits

/-- Reads a document. -/
def read (document : List Char) : Except Fault Value :=
  (readDocument document).mapError (Stop.locate document)

/-- The wording of a complaint with its place. -/
def report (what : Complaint) (place : Place) : String :=
  what.text ++ ": line " ++ toString place.line ++ " column " ++ toString place.column ++
    " (char " ++ toString place.index ++ ")"

end LockPrefetch.Json
