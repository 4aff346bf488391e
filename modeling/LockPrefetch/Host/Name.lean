import LockPrefetch.Host.Preparation
import LockPrefetch.Host.Punycode
import LockPrefetch.Text.Quoted

/-! # Host names

A host name is looked up in ASCII. Labels between dots are kept if they are ASCII, and are
prepared and written in Punycode behind `xn--` if they are not. A label has 1 to 63 characters;
only the last one may be empty. -/

set_option autoImplicit false

namespace LockPrefetch.Host

/-- Why a host name has no ASCII form. -/
inductive Fault where
  /-- A label is empty or has too many characters. -/
  | badLength
  /-- The last label of an ASCII name has too many characters. -/
  | longEnding
  | unprepared (reason : Unprepared)
  /-- A label beyond ASCII starts like one that is written in Punycode. -/
  | marked
deriving DecidableEq, Repr

/-- The wording of a fault. -/
def Fault.message : Fault → String
  | .badLength => "label empty or too long"
  | .longEnding => "label too long"
  | .unprepared (.prohibited c) => "Invalid character " ++ Text.quoted (String.singleton c)
  | .unprepared .mixedDirections => "Violation of BIDI requirement 2"
  | .unprepared .ragged => "Violation of BIDI requirement 3"
  | .marked => "Label starts with ACE prefix"

/-- The most characters in a label. -/
def labelLimit : Nat := 63

/-- What labels written in Punycode start with. -/
def punycodeMark : List Char := "xn--".toList

/-- Whether a text is ASCII. -/
def isAscii (text : List Char) : Bool := text.all Punycode.isBasic

/-- Accepts a label of the right length. -/
def sized (label : List Char) : Except Fault (List Char) :=
  if 0 < label.length ∧ label.length ≤ labelLimit then .ok label else .error .badLength

/-- The ASCII form of a label. -/
def asciiLabel (label : List Char) : Except Fault (List Char) :=
  if isAscii label then sized label
  else
    match prepare label with
    | .error reason => .error (.unprepared reason)
    | .ok prepared =>
      if isAscii prepared then sized prepared
      else if punycodeMark.isPrefixOf prepared then .error .marked
      else sized (punycodeMark ++ Punycode.encode prepared)

/-- Accepts the labels of an ASCII name. -/
def checkLabels : List (List Char) → Except Fault Unit
  | [] => .ok ()
  | [label] => if labelLimit < label.length then .error .longEnding else .ok ()
  | label :: more => do
    let _ ← sized label
    checkLabels more

/-- The dots that separate the labels of a name beyond ASCII. -/
def dots : List Char := ['.', '\u3002', '\uff0e', '\uff61']

/-- The labels of a name beyond ASCII. -/
def labels (name : List Char) : List (List Char) :=
  Text.pieces '.' (name.map fun c => if dots.contains c then '.' else c)

/-- The ASCII form of a host name. -/
def ascii (name : List Char) : Except Fault (List Char) :=
  if isAscii name then do
    checkLabels (Text.pieces '.' name)
    return name
  else do
    let parts := labels name
    let (whole, ending) :=
      if parts.getLast? = some [] then (parts.dropLast, ['.']) else (parts, [])
    return ['.'].intercalate (← whole.mapM asciiLabel) ++ ending

end LockPrefetch.Host
