import LockPrefetch.Hash.Blocks

/-! # SHA-1

Five words of 32 bits, most significant octet first, mixed in eighty steps per block. -/

set_option autoImplicit false

namespace LockPrefetch.Hash.Sha1

/-- The running state. -/
structure State where
  a : UInt32
  b : UInt32
  c : UInt32
  d : UInt32
  e : UInt32

/-- The state before the first block. -/
def start : State := ⟨0x67452301, 0xefcdab89, 0x98badcfe, 0x10325476, 0xc3d2e1f0⟩

/-- Rotation to the left. -/
def rotate (x n : UInt32) : UInt32 := (x <<< n) ||| (x >>> (32 - n))

/-- The schedule's next word: four earlier words, combined and rotated by one. -/
def next (window : List UInt32) : UInt32 :=
  rotate (pick window 13 ^^^ pick window 8 ^^^ pick window 2 ^^^ pick window 0) 1

/-- What a step adds from its mixing function and its round's constant. -/
def mix (step : Nat) (s : State) : UInt32 :=
  match step / 20 with
  | 0 => ((s.b &&& s.c) ||| (~~~s.b &&& s.d)) + 0x5a827999
  | 1 => (s.b ^^^ s.c ^^^ s.d) + 0x6ed9eba1
  | 2 => ((s.b &&& s.c) ||| (s.b &&& s.d) ||| (s.c &&& s.d)) + 0x8f1bbcdc
  | _ => (s.b ^^^ s.c ^^^ s.d) + 0xca62c1d6

/-- One step. -/
def advance (s : State) (step : Nat × UInt32) : State :=
  ⟨rotate s.a 5 + mix step.1 s + s.e + step.2, s.a, rotate s.b 30, s.c, s.d⟩

/-- Mixes one block into the state. -/
def absorb (s : State) (block : Bytes) : State :=
  let words := (Bytes.chunks 4 block).map fun w => UInt32.ofNat (Bytes.ofBigEndian w)
  let t := ((List.range 80).zip (schedule next 80 words)).foldl advance s
  ⟨s.a + t.a, s.b + t.b, s.c + t.c, s.d + t.d, s.e + t.e⟩

/-- The octets of a final state. -/
def State.octets (s : State) : Bytes :=
  [s.a, s.b, s.c, s.d, s.e].flatMap fun w => Bytes.bigEndian 4 w.toNat

/-- The SHA-1 digest, twenty octets. -/
def digest (message : Bytes) : Bytes :=
  ((blocks 64 8 Bytes.bigEndian message).foldl absorb start).octets

@[simp] theorem length_digest (message : Bytes) : (digest message).length = 20 := by
  simp [digest, State.octets]

end LockPrefetch.Hash.Sha1
