/-! # Byte strings

File contents, digests and downloads are byte strings. They are kept as lists of octets, so
that everything said about them is said by recursion on the list. The two number formats here
are the ones hash functions use: a fixed count of octets, most or least significant first. -/

set_option autoImplicit false

namespace LockPrefetch

/-- Octets in the order in which they are stored or sent. -/
abbrev Bytes := List UInt8

namespace Bytes

/-- The lowest `count` octets of `n`, least significant first. -/
def littleEndian : Nat → Nat → Bytes
  | 0, _ => []
  | count + 1, n => UInt8.ofNat (n % 256) :: littleEndian count (n / 256)

/-- The lowest `count` octets of `n`, most significant first. -/
def bigEndian (count n : Nat) : Bytes := (littleEndian count n).reverse

/-- The number whose octets are given least significant first. -/
def ofLittleEndian : Bytes → Nat
  | [] => 0
  | b :: rest => b.toNat + 256 * ofLittleEndian rest

/-- The number whose octets are given most significant first. -/
def ofBigEndian (data : Bytes) : Nat := ofLittleEndian data.reverse

@[simp] theorem length_littleEndian (count n : Nat) : (littleEndian count n).length = count := by
  induction count generalizing n with
  | zero => rfl
  | succ count ih => simp [littleEndian, ih]

@[simp] theorem length_bigEndian (count n : Nat) : (bigEndian count n).length = count := by
  simp [bigEndian]

/-- Successive pieces of `size` elements; the last piece may be shorter. A size of zero is
read as one, so that every piece takes something off the list. -/
def chunks {α : Type} (size : Nat) (xs : List α) : List (List α) :=
  match xs with
  | [] => []
  | x :: rest => (x :: rest.take (size - 1)) :: chunks size (rest.drop (size - 1))
termination_by xs.length

end Bytes

end LockPrefetch
