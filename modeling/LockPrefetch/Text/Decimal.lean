import LockPrefetch.Text.Blank

/-! # Decimal numbers

Whole numbers as people write them: digits of any script, single underscores between digits, a
sign, blanks around. Numbers of more than 4300 digits are refused. -/

set_option autoImplicit false

namespace LockPrefetch.Text

/-- The zeros of the scripts that have decimal digits; the other nine follow each zero. -/
def zeros : List Nat :=
  [0x30, 0x660, 0x6f0, 0x7c0, 0x966, 0x9e6, 0xa66, 0xae6, 0xb66, 0xbe6, 0xc66, 0xce6, 0xd66,
   0xde6, 0xe50, 0xed0, 0xf20, 0x1040, 0x1090, 0x17e0, 0x1810, 0x1946, 0x19d0, 0x1a80, 0x1a90,
   0x1b50, 0x1bb0, 0x1c40, 0x1c50, 0xa620, 0xa8d0, 0xa900, 0xa9d0, 0xa9f0, 0xaa50, 0xabf0,
   0xff10, 0x104a0, 0x10d30, 0x11066, 0x110f0, 0x11136, 0x111d0, 0x112f0, 0x11450, 0x114d0,
   0x11650, 0x116c0, 0x11730, 0x118e0, 0x11950, 0x11c50, 0x11d50, 0x11da0, 0x16a60, 0x16ac0,
   0x16b50, 0x1d7ce, 0x1d7d8, 0x1d7e2, 0x1d7ec, 0x1d7f6, 0x1e140, 0x1e2f0, 0x1e950, 0x1fbf0]

/-- The value of a decimal digit of any script. -/
def digitValue? (c : Char) : Option Nat :=
  match zeros.find? fun base => base ≤ c.toNat && c.toNat < base + 10 with
  | some base => some (c.toNat - base)
  | none => none

/-- The most digits that a number may have. -/
def maxDigits : Nat := 4300

/-- The wording of the refusal of a number that has too many digits. -/
def oversizedText (digits : Nat) : String :=
  "Exceeds the limit (" ++ toString maxDigits ++
    " digits) for integer string conversion: value has " ++ toString digits ++
    " digits; use sys.set_int_max_str_digits() to increase the limit"

/-- The number that digits spell, most significant first. -/
def ofDigits (digits : List Nat) : Nat := digits.foldl (fun n d => 10 * n + d) 0

/-- The digits of a text in which single underscores may stand between digits. -/
def digitRun? : List Char → Option (List Nat)
  | [] => none
  | [c] => (digitValue? c).map ([·])
  | c :: '_' :: rest => do
    let d ← digitValue? c
    let more ← digitRun? rest
    return d :: more
  | c :: rest => do
    let d ← digitValue? c
    let more ← digitRun? rest
    return d :: more

/-- The blanks that may surround a number. -/
def surroundsNumber (c : Char) : Bool :=
  if c.toNat < 0x80 then c.toNat == 0x20 || (0x09 ≤ c.toNat && c.toNat ≤ 0x0d) else isBlank c

/-- Reads a whole number. -/
def wholeNumber? (text : List Char) : Option Int := do
  let core := ((text.dropWhile surroundsNumber).reverse.dropWhile surroundsNumber).reverse
  let (negative, body) :=
    match core with
    | '-' :: rest => (true, rest)
    | '+' :: rest => (false, rest)
    | rest => (false, rest)
  let digits ← digitRun? body
  if digits.length ≤ maxDigits then
    return if negative then -(ofDigits digits : Int) else ofDigits digits
  else none

end LockPrefetch.Text
