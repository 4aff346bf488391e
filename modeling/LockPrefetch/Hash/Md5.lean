import LockPrefetch.Hash.Blocks

/-! # MD5

Four words of 32 bits, least significant octet first, mixed in sixty-four steps per block. -/

set_option autoImplicit false

namespace LockPrefetch.Hash.Md5

/-- The running state. -/
structure State where
  a : UInt32
  b : UInt32
  c : UInt32
  d : UInt32

/-- The state before the first block. -/
def start : State := ⟨0x67452301, 0xefcdab89, 0x98badcfe, 0x10325476⟩

/-- The additive constants of the steps: the integer parts of `2^32 * |sin i|`. -/
def additions : List UInt32 :=
  [0xd76aa478, 0xe8c7b756, 0x242070db, 0xc1bdceee, 0xf57c0faf, 0x4787c62a,
   0xa8304613, 0xfd469501, 0x698098d8, 0x8b44f7af, 0xffff5bb1, 0x895cd7be,
   0x6b901122, 0xfd987193, 0xa679438e, 0x49b40821, 0xf61e2562, 0xc040b340,
   0x265e5a51, 0xe9b6c7aa, 0xd62f105d, 0x02441453, 0xd8a1e681, 0xe7d3fbc8,
   0x21e1cde6, 0xc33707d6, 0xf4d50d87, 0x455a14ed, 0xa9e3e905, 0xfcefa3f8,
   0x676f02d9, 0x8d2a4c8a, 0xfffa3942, 0x8771f681, 0x6d9d6122, 0xfde5380c,
   0xa4beea44, 0x4bdecfa9, 0xf6bb4b60, 0xbebfbc70, 0x289b7ec6, 0xeaa127fa,
   0xd4ef3085, 0x04881d05, 0xd9d4d039, 0xe6db99e5, 0x1fa27cf8, 0xc4ac5665,
   0xf4292244, 0x432aff97, 0xab9423a7, 0xfc93a039, 0x655b59c3, 0x8f0ccc92,
   0xffeff47d, 0x85845dd1, 0x6fa87e4f, 0xfe2ce6e0, 0xa3014314, 0x4e0811a1,
   0xf7537e82, 0xbd3af235, 0x2ad7d2bb, 0xeb86d391]

/-- The rotations of the four rounds, each repeating in a cycle of four steps. -/
def rotations : List (List UInt32) :=
  [[7, 12, 17, 22], [5, 9, 14, 20], [4, 11, 16, 23], [6, 10, 15, 21]]

/-- Rotation to the left. -/
def rotate (x n : UInt32) : UInt32 := (x <<< n) ||| (x >>> (32 - n))

/-- The mixing function of a round. -/
def mix (round : Nat) (s : State) : UInt32 :=
  match round with
  | 0 => (s.b &&& s.c) ||| (~~~s.b &&& s.d)
  | 1 => (s.b &&& s.d) ||| (s.c &&& ~~~s.d)
  | 2 => s.b ^^^ s.c ^^^ s.d
  | _ => s.c ^^^ (s.b ||| ~~~s.d)

/-- The word that a step reads: each round walks the block with a stride of its own. -/
def place (round step : Nat) : Nat :=
  match round with
  | 0 => step % 16
  | 1 => (5 * step + 1) % 16
  | 2 => (3 * step + 5) % 16
  | _ => 7 * step % 16

/-- One step. -/
def advance (words : List UInt32) (s : State) (step : Nat × UInt32) : State :=
  let round := step.1 / 16
  let sum := s.a + mix round s + step.2 + pick words (place round step.1)
  ⟨s.d, s.b + rotate sum (pick (pick rotations round) (step.1 % 4)), s.b, s.c⟩

/-- Mixes one block into the state. -/
def absorb (s : State) (block : Bytes) : State :=
  let words := (Bytes.chunks 4 block).map fun w => UInt32.ofNat (Bytes.ofLittleEndian w)
  let t := ((List.range 64).zip additions).foldl (advance words) s
  ⟨s.a + t.a, s.b + t.b, s.c + t.c, s.d + t.d⟩

/-- The octets of a final state. -/
def State.octets (s : State) : Bytes :=
  [s.a, s.b, s.c, s.d].flatMap fun w => Bytes.littleEndian 4 w.toNat

/-- The MD5 digest, sixteen octets. -/
def digest (message : Bytes) : Bytes :=
  ((blocks 64 8 Bytes.littleEndian message).foldl absorb start).octets

@[simp] theorem length_digest (message : Bytes) : (digest message).length = 16 := by
  simp [digest, State.octets]

end LockPrefetch.Hash.Md5
