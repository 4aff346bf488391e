/-! # Punycode

Text written with the letters `a` to `z`, digits and the hyphen. The ASCII characters come
first, then a hyphen if there are any, then the other characters in the order of their code
points, each as a number that tells how far it lies from the one before it: all places at which
smaller code points could stand are counted. Numbers are written with 36 digits, the lowest
first; the thresholds that end a number follow the size of the numbers before it. -/

set_option autoImplicit false

namespace LockPrefetch.Host.Punycode

/-- The digit of a value below 36. -/
def digit (n : Nat) : Char :=
  if n < 26 then Char.ofNat ('a'.toNat + n) else Char.ofNat ('0'.toNat + (n - 26))

/-- The threshold of the digit at the position `36 * i + 36`, which `position` gives. -/
def threshold (position bias : Nat) : Nat := min 26 (max 1 (position - bias))

theorem threshold_pos (position bias : Nat) : 0 < threshold position bias := by
  simp only [threshold]
  omega

/-- The digits of a number from a position on. -/
def number (bias position n : Nat) : List Char :=
  let t := threshold position bias
  if n < t then [digit n]
  else digit (t + (n - t) % (36 - t)) :: number bias (position + 36) ((n - t) / (36 - t))
termination_by n
decreasing_by
  have smaller := Nat.div_le_self (n - threshold position bias) (36 - threshold position bias)
  have := threshold_pos position bias
  omega

/-- The bias that a scaled number asks for, `steps` scalings of 35 behind it. -/
def settle (steps n : Nat) : Nat :=
  if 455 < n then settle (steps + 1) (n / 35) else 36 * steps + 36 * n / (n + 38)
termination_by n
decreasing_by omega

/-- The bias after a number that was written as one of `count` characters. -/
def adapt (n count : Nat) (first : Bool) : Nat :=
  let scaled := if first then n / 700 else n / 2
  settle 0 (scaled + scaled / count)

/-- How far the writing has come: the digits so far, the number for the next character, the
bias, and the count of characters written. -/
structure State where
  digits : List Char
  distance : Nat
  bias : Nat
  count : Nat

/-- Passes a character on the way to the characters with a given code point, which are written;
a smaller one counts as a place. `basic` is the count of ASCII characters. -/
def pass (basic code : Nat) (state : State) (c : Char) : State :=
  if c.toNat < code then { state with distance := state.distance + 1 }
  else if c.toNat = code then
    { digits := state.digits ++ number state.bias 36 state.distance
      distance := 0
      bias := adapt state.distance (state.count + 1) (state.count == basic)
      count := state.count + 1 }
  else state

/-- Writes the characters with some code points, which come in order; all characters below
`next` are written. -/
def writeAll (text : List Char) (basic : Nat) (next : Nat) : List Nat → State → State
  | [], state => state
  | code :: more, state =>
    let start := { state with distance := state.distance + (code - next) * (state.count + 1) }
    let passed := text.foldl (pass basic code) start
    writeAll text basic (code + 1) more { passed with distance := passed.distance + 1 }

/-- Whether a character is ASCII. -/
def isBasic (c : Char) : Bool := c.toNat < 0x80

/-- The code points beyond ASCII, each once, in order. -/
def otherCodes (text : List Char) : List Nat :=
  (((text.filter (!isBasic ·)).map Char.toNat).mergeSort fun a b => decide (a ≤ b)).eraseReps

/-- A text in Punycode. -/
def encode (text : List Char) : List Char :=
  let basic := text.filter isBasic
  let start : State := ⟨[], 0, 72, basic.length⟩
  let mark := if basic.isEmpty then [] else ['-']
  basic ++ mark ++ (writeAll text basic.length 0x80 (otherCodes text) start).digits

end LockPrefetch.Host.Punycode
