import LockPrefetch.Host.Name
import LockPrefetch.Text.Number
import LockPrefetch.Url.Address

/-! # Reaching hosts

What a host name leads to where no network is at hand: numbers and the name of this machine
stand for addresses, at which nothing listens; any other name has to be looked up, which
fails. -/

set_option autoImplicit false

namespace LockPrefetch.Host

/-! ## Addresses in numbers -/

/-- The value of digits of a base; `none` if there are none or one is foreign. -/
def digitsIn (base : Nat) (digits : List Char) : Option Nat :=
  if digits.isEmpty then none
  else
    digits.foldlM (fun n c =>
      match Hex.value? c with
      | some d => if d < base then some (base * n + d) else none
      | none => none) 0

/-- A number in hexadecimal behind `0x`, in octal behind `0`, or in decimal. -/
def numeral? : List Char → Option Nat
  | '0' :: 'x' :: digits => digitsIn 16 digits
  | '0' :: 'X' :: digits => digitsIn 16 digits
  | '0' :: digits => digitsIn 8 ('0' :: digits)
  | digits => digitsIn 10 digits

/-- The address that up to four numbers spell: an octet each, but the last number fills all the
octets that are left. -/
def addressOf? (numbers : List Nat) : Option Nat := do
  let last ← numbers.getLast?
  let left := 32 - 8 * numbers.dropLast.length
  let before := numbers.dropLast.foldl (fun value n => 256 * value + n) 0
  if numbers.length ≤ 4 ∧ numbers.dropLast.all (· < 256) ∧ last < 1 <<< left then
    return before <<< left + last
  else none

/-- The address of version 4 that a text stands for. -/
def version4? (text : List Char) : Option Nat :=
  ((Text.pieces '.' text).mapM numeral?).bind addressOf?

/-- The name of this machine. -/
def thisMachine : List Char := "localhost".toList

/-- The address of this machine. -/
def loopback : Nat := 0x7f000001

/-- The address of version 4 that a name leads to without a look-up. -/
def address? (name : List Char) : Option Nat :=
  if name.map Char.toLower = thisMachine then some loopback else version4? name

/-! ## Connections -/

/-- Why a host is not reached. -/
inductive Unreached where
  | refused
  | badPort
  | unknownName
  | unansweredName
deriving DecidableEq, Repr

/-- The wording of a reason. -/
def Unreached.message : Unreached → String
  | .refused => "[Errno 111] Connection refused"
  | .badPort => "[Errno -8] Servname not supported for ai_socktype"
  | .unknownName => "[Errno -2] Name or service not known"
  | .unansweredName => "[Errno -3] Temporary failure in name resolution"

/-- The most characters in a name that can be looked up, not counting a dot at its end. -/
def nameLimit : Nat := 253

/-- Whether a name can be looked up. -/
def isName (name : List Char) : Bool :=
  (Text.withoutEnding ['.'] name).length ≤ nameLimit && !name.isEmpty && name.head? != some '-' &&
    name.all fun c => c.isAlphanum || c == '-' || c == '_' || c == '.'

/-- Whether a name is made of digits and dots, like an address, and does not end with a dot. -/
def looksNumeric (name : List Char) : Bool :=
  name.all (fun c => c.isDigit || c == '.') && name.getLast? != some '.'

/-- Whether a name is an address of version 6. -/
def isVersion6 (name : List Char) : Bool := Url.Address.isVersion6 name && !name.contains '%'

/-- What comes of a connection. Ports count modulo `2 ^ 32`; the upper half of them is bad. -/
def unreached (name : List Char) (port : Int) : Unreached :=
  if Int.bmod port 0x100000000 < 0 then .badPort
  else if (address? name).isSome || isVersion6 name then .refused
  else if isName name then .unansweredName
  else .unknownName

end LockPrefetch.Host
