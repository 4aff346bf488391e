import LockPrefetch.Bytes.Basic

/-! # Message blocks

The hash functions here all work alike. The message is closed by the octet `80`, filled up with
zeros and ended by its length in bits, so that it divides into whole blocks; each block is read
as sixteen words and mixed into a running state. -/

set_option autoImplicit false

namespace LockPrefetch.Hash

/-- What follows a message of `length` octets: the octet `80`, zeros, and the length in bits
written by `count`, which takes `width` octets. Together with the message it fills whole
blocks of `block` octets. -/
def closing (block width : Nat) (count : Nat → Nat → Bytes) (length : Nat) : Bytes :=
  let used := (length + 1 + width) % block
  0x80 :: (List.replicate ((block - used) % block) 0 ++ count width (8 * length))

/-- The blocks of a closed message. -/
def blocks (block width : Nat) (count : Nat → Nat → Bytes) (message : Bytes) : List Bytes :=
  Bytes.chunks block (message ++ closing block width count message.length)

/-- Extends a block's sixteen words to a schedule of `count` words, each new word computed from
the sixteen before it. -/
def schedule {word : Type} (next : List word → word) : Nat → List word → List word
  | 0, _ => []
  | _ + 1, [] => []
  | count + 1, w :: window => w :: schedule next count (window ++ [next (w :: window)])

/-- The word at a place of the window; a missing one reads as zero. -/
def pick {word : Type} [Inhabited word] (window : List word) (place : Nat) : word :=
  window.getD place default

end LockPrefetch.Hash
