/-! # Numbers as text

Whole numbers in decimal digits, without leading zeros. -/

set_option autoImplicit false

namespace LockPrefetch.Text

/-- The digit of a value below ten. -/
def decimalDigit (n : Nat) : Char := Char.ofNat (48 + n)

/-- The decimal digits of a number. -/
def decimal (n : Nat) : List Char :=
  if n < 10 then [decimalDigit n] else decimal (n / 10) ++ [decimalDigit (n % 10)]
termination_by n
decreasing_by omega

/-- The number that ASCII digits spell. -/
def ofDecimal (digits : List Char) : Nat :=
  digits.foldl (fun n c => 10 * n + (c.toNat - 48)) 0

/-- A whole number with its sign. -/
def signedDecimal : Int → List Char
  | .ofNat n => decimal n
  | .negSucc n => '-' :: decimal (n + 1)

end LockPrefetch.Text
