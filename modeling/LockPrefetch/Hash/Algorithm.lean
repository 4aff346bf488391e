import LockPrefetch.Hash.Md5
import LockPrefetch.Hash.Sha1
import LockPrefetch.Hash.Sha256
import LockPrefetch.Hash.Sha512

/-! # Hash algorithms

The six hash functions that digests may name. Names are matched without regard to the case of
ASCII letters. -/

set_option autoImplicit false

namespace LockPrefetch.Hash

/-- A supported hash function. -/
inductive Algorithm where
  | md5
  | sha1
  | sha224
  | sha256
  | sha384
  | sha512
deriving DecidableEq, Repr

namespace Algorithm

/-- The lower-case name. -/
def name : Algorithm → String
  | .md5 => "md5"
  | .sha1 => "sha1"
  | .sha224 => "sha224"
  | .sha256 => "sha256"
  | .sha384 => "sha384"
  | .sha512 => "sha512"

/-- All supported functions. -/
def all : List Algorithm := [.md5, .sha1, .sha224, .sha256, .sha384, .sha512]

/-- The function of a name written in any letter case. -/
def ofName? (text : String) : Option Algorithm :=
  all.find? fun a => a.name.toList == text.toList.map Char.toLower

/-- The number of octets in a digest. -/
def size : Algorithm → Nat
  | .md5 => 16
  | .sha1 => 20
  | .sha224 => 28
  | .sha256 => 32
  | .sha384 => 48
  | .sha512 => 64

/-- The digest of a byte string. -/
def digest : Algorithm → Bytes → Bytes
  | .md5 => Md5.digest
  | .sha1 => Sha1.digest
  | .sha224 => Sha256.digest224
  | .sha256 => Sha256.digest256
  | .sha384 => Sha512.digest384
  | .sha512 => Sha512.digest512

/-- Every digest has the size of its function. -/
@[simp] theorem length_digest (a : Algorithm) (message : Bytes) :
    (a.digest message).length = a.size := by
  cases a <;> simp [digest, size]

theorem mem_all (a : Algorithm) : a ∈ all := by
  cases a <;> decide

/-- A supported function is found under its own name. -/
@[simp] theorem ofName?_name (a : Algorithm) : ofName? a.name = some a := by
  cases a <;> decide

end Algorithm

end LockPrefetch.Hash
