import LockPrefetch.Hash.Blocks

/-! # SHA-256 and SHA-224

Eight words of 32 bits, most significant octet first, mixed in sixty-four steps per block. The
shorter function starts from another state and drops the last word. -/

set_option autoImplicit false

namespace LockPrefetch.Hash.Sha256

/-- The running state. -/
structure State where
  a : UInt32
  b : UInt32
  c : UInt32
  d : UInt32
  e : UInt32
  f : UInt32
  g : UInt32
  h : UInt32

/-- The state from which SHA-256 starts. -/
def start256 : State :=
  ⟨0x6a09e667, 0xbb67ae85, 0x3c6ef372, 0xa54ff53a,
   0x510e527f, 0x9b05688c, 0x1f83d9ab, 0x5be0cd19⟩

/-- The state from which SHA-224 starts. -/
def start224 : State :=
  ⟨0xc1059ed8, 0x367cd507, 0x3070dd17, 0xf70e5939,
   0xffc00b31, 0x68581511, 0x64f98fa7, 0xbefa4fa4⟩

/-- The additive constants of the steps: the first fractional bits of the cube roots of the
first 64 primes. -/
def additions : List UInt32 :=
  [0x428a2f98, 0x71374491, 0xb5c0fbcf, 0xe9b5dba5, 0x3956c25b, 0x59f111f1,
   0x923f82a4, 0xab1c5ed5, 0xd807aa98, 0x12835b01, 0x243185be, 0x550c7dc3,
   0x72be5d74, 0x80deb1fe, 0x9bdc06a7, 0xc19bf174, 0xe49b69c1, 0xefbe4786,
   0x0fc19dc6, 0x240ca1cc, 0x2de92c6f, 0x4a7484aa, 0x5cb0a9dc, 0x76f988da,
   0x983e5152, 0xa831c66d, 0xb00327c8, 0xbf597fc7, 0xc6e00bf3, 0xd5a79147,
   0x06ca6351, 0x14292967, 0x27b70a85, 0x2e1b2138, 0x4d2c6dfc, 0x53380d13,
   0x650a7354, 0x766a0abb, 0x81c2c92e, 0x92722c85, 0xa2bfe8a1, 0xa81a664b,
   0xc24b8b70, 0xc76c51a3, 0xd192e819, 0xd6990624, 0xf40e3585, 0x106aa070,
   0x19a4c116, 0x1e376c08, 0x2748774c, 0x34b0bcb5, 0x391c0cb3, 0x4ed8aa4a,
   0x5b9cca4f, 0x682e6ff3, 0x748f82ee, 0x78a5636f, 0x84c87814, 0x8cc70208,
   0x90befffa, 0xa4506ceb, 0xbef9a3f7, 0xc67178f2]

/-- Rotation to the right. -/
def rotate (x n : UInt32) : UInt32 := (x >>> n) ||| (x <<< (32 - n))

/-- The mixture of a schedule word that enters fifteen words later. -/
def nearMix (x : UInt32) : UInt32 := rotate x 7 ^^^ rotate x 18 ^^^ (x >>> 3)

/-- The mixture of a schedule word that enters two words later. -/
def farMix (x : UInt32) : UInt32 := rotate x 17 ^^^ rotate x 19 ^^^ (x >>> 10)

/-- The schedule's next word. -/
def next (window : List UInt32) : UInt32 :=
  farMix (pick window 14) + pick window 9 + nearMix (pick window 1) + pick window 0

/-- The mixture of the state's first word. -/
def upperMix (x : UInt32) : UInt32 := rotate x 2 ^^^ rotate x 13 ^^^ rotate x 22

/-- The mixture of the state's fifth word. -/
def lowerMix (x : UInt32) : UInt32 := rotate x 6 ^^^ rotate x 11 ^^^ rotate x 25

/-- One step, with a constant and a schedule word. -/
def advance (s : State) (step : UInt32 × UInt32) : State :=
  let first := s.h + lowerMix s.e + ((s.e &&& s.f) ^^^ (~~~s.e &&& s.g)) + step.1 + step.2
  let second := upperMix s.a + ((s.a &&& s.b) ^^^ (s.a &&& s.c) ^^^ (s.b &&& s.c))
  ⟨first + second, s.a, s.b, s.c, s.d + first, s.e, s.f, s.g⟩

/-- Mixes one block into the state. -/
def absorb (s : State) (block : Bytes) : State :=
  let words := (Bytes.chunks 4 block).map fun w => UInt32.ofNat (Bytes.ofBigEndian w)
  let t := (additions.zip (schedule next 64 words)).foldl advance s
  ⟨s.a + t.a, s.b + t.b, s.c + t.c, s.d + t.d, s.e + t.e, s.f + t.f, s.g + t.g, s.h + t.h⟩

/-- The octets of a final state. -/
def State.octets (s : State) : Bytes :=
  [s.a, s.b, s.c, s.d, s.e, s.f, s.g, s.h].flatMap fun w => Bytes.bigEndian 4 w.toNat

/-- The state after a message, from a given start. -/
def run (start : State) (message : Bytes) : State :=
  (blocks 64 8 Bytes.bigEndian message).foldl absorb start

/-- The SHA-256 digest, thirty-two octets. -/
def digest256 (message : Bytes) : Bytes := (run start256 message).octets

/-- The SHA-224 digest, twenty-eight octets. -/
def digest224 (message : Bytes) : Bytes := (run start224 message).octets.take 28

@[simp] theorem length_digest256 (message : Bytes) : (digest256 message).length = 32 := by
  simp [digest256, State.octets]

@[simp] theorem length_digest224 (message : Bytes) : (digest224 message).length = 28 := by
  simp [digest224, State.octets]

end LockPrefetch.Hash.Sha256
