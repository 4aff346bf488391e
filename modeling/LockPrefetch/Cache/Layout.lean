import LockPrefetch.Bytes.Hex
import LockPrefetch.Encoding.Utf8
import LockPrefetch.FileTree.Path
import LockPrefetch.Hash.Algorithm

/-! # Where a store keeps things

Below the root of a store, content lies by its own digest and records lie by the digest of
their key, both spread over two levels of directories:

    content-v2/name/ab/cd/rest of the digest
    index-v5/ab/cd/rest of the key's digest

Distinct keys may share a bucket of records only if their digests are the same. -/

set_option autoImplicit false

namespace LockPrefetch.Cache

/-- A path below two directories named by the first two pairs of digits. -/
def sharded (base : Path) (hex : String) : Path :=
  let digits := hex.toList
  ((base.join (String.ofList (digits.take 2))).join
    (String.ofList ((digits.drop 2).take 2))).join (String.ofList (digits.drop 4))

/-- The directory of contents. -/
def contentDirectory : String := "content-v2"

/-- The directory of records. -/
def indexDirectory : String := "index-v5"

/-- Where content with a digest lies, given the name of the function and the digest in
hexadecimal digits. -/
def contentPath (root : Path) (name hex : String) : Path :=
  sharded ((root.join contentDirectory).join name) hex

/-- The digest that decides where the records of a key lie. -/
def keyHash (key : String) : String :=
  Hex.encode (Hash.Algorithm.sha256.digest (Encoding.Utf8.encode key.toList))

/-- Where the records of a key lie. -/
def bucketPath (root : Path) (key : String) : Path :=
  sharded (root.join indexDirectory) (keyHash key)

end LockPrefetch.Cache
