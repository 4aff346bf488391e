import LockPrefetch.Cache.Bucket
import LockPrefetch.Cache.Layout
import LockPrefetch.FileTree.Action
import LockPrefetch.Integrity.Digest

/-! # The store

A store keeps content by its digest and an index from keys to digests, on a file tree. Content
is written once and never changed; each `put` adds a line to the key's bucket, and the last
valid line counts. Content is verified against its declared digest before anything is written,
and again whenever it is read. -/

set_option autoImplicit false

namespace LockPrefetch

/-- A store below a path. -/
structure Store where
  root : Path
deriving DecidableEq, Repr

namespace Store

open FileTree (Action)

/-- Where content with a digest lies. -/
def contentPath (store : Store) (digest : Digest) : Path :=
  Cache.contentPath store.root digest.name digest.hex

/-- Where the records of a key lie. -/
def bucketPath (store : Store) (key : String) : Path := Cache.bucketPath store.root key

/-! ## Failures -/

/-- A refusal of the file tree in an operation on a path. -/
def refused (operation : String) (path : Path) (fault : FileTree.Fault) : Failure :=
  if fault.isSystem then
    .diagnosed ⟨.cacheIo, "Cache directory is not writable or readable.", some fault.message,
      [("operation", operation), ("path", path.text)]⟩
  else .fileTree fault

/-- The report on content that is not what its declared digest says. -/
def mismatch (key url declared actual : String) : Diagnostic :=
  ⟨.integrityMismatch, "Fetched content does not match the declared integrity.",
    some "The lockfile digest or the upstream tarball has changed.",
    [("operation", "cache_put"), ("key", key), ("url", url), ("expected", declared),
     ("actual", actual)]⟩

/-- The report on a declared digest that no content can match. -/
def malformedDeclaration (key url declared : String) (fault : Diagnostic) : Diagnostic :=
  let more :=
    [("operation", "cache_put"), ("key", key), ("url", url), ("expected", declared)]
  ⟨.integrityMismatch, "Declared integrity digest is malformed.",
    some "Regenerate the lockfile entry for this package.",
    more.foldl (fun context entry => Ordered.put entry.1 entry.2 context) fault.context⟩

/-- The report on content that has changed in the store. -/
def corrupted (path : Path) (expected actual : String) : Diagnostic :=
  ⟨.integrityMismatch, "Cached content blob is corrupted.",
    some "Delete the cache directory and prefetch again.",
    [("operation", "cache_read"), ("path", path.text), ("expected", expected),
     ("actual", actual)]⟩

/-! ## Storing -/

/-- The digest of content under the function of its declared digest, which it has to match;
without a declaration, its digest under the default function. -/
def verify (key url : String) (data : Bytes) (declared : Option String) :
    Except Failure Digest :=
  match declared with
  | none => (Digest.compute data Digest.defaultName).mapError Digest.Fault.toFailure
  | some token =>
    match Digest.parse token with
    | .error fault =>
      match fault.toFailure with
      | .diagnosed report => .error (.diagnosed (malformedDeclaration key url token report))
      | failure => .error failure
    | .ok expected => do
      let actual ← (Digest.compute data expected.name).mapError Digest.Fault.toFailure
      if actual.octets = expected.octets then return actual
      else .error (.diagnosed (mismatch key url token actual.token))

/-- Whether content with a digest is there. -/
def hasContent (store : Store) (tree : FileTree) (digest : Digest) : Except Failure Bool :=
  (tree.pathExists (store.contentPath digest)).mapError .fileTree

/-- Lays content down by its digest. -/
def placeContent (store : Store) (digest : Digest) (data : Bytes) : Action Failure Unit :=
  let path := store.contentPath digest
  Action.restating (refused "cache_put" path) do
    FileTree.ensureDirectories path.parent
    FileTree.writeFile path data

/-- Adds a record to the bucket of its key. -/
def appendRecord (store : Store) (key url : String) (digest : Digest) (size : Nat) :
    Action Failure Unit :=
  let path := store.bucketPath key
  let record := Json.write .compact 0 (Cache.Bucket.record key url digest.token size)
  Action.restating (refused "cache_put" path) do
    FileTree.ensureDirectories path.parent
    FileTree.appendFile path (Encoding.Utf8.encode (Cache.Bucket.line record))

/-- Stores content under a key and yields the token of its digest. Content that is there is not
written again. -/
def put (store : Store) (key url : String) (data : Bytes) (declared : Option String) :
    Action Failure String := do
  let digest ← Action.inspect fun _ => verify key url data declared
  let present ← Action.inspect fun tree => store.hasContent tree digest
  unless present do
    store.placeContent digest data
  store.appendRecord key url digest data.length
  return digest.token

/-! ## Looking up -/

/-- The entries of a key, oldest first. -/
def entries (store : Store) (tree : FileTree) (key : String) :
    Except Failure (List Cache.Entry) :=
  let path := store.bucketPath key
  match tree.readFile path with
  | .ok content => do
    let text ← (Encoding.Utf8.decode content).mapError .undecodable
    Cache.Bucket.entriesOf key text
  | .error fault =>
    if fault.refusal = .noEntry then .ok [] else .error (refused "cache_read" path fault)

/-- The entry of a key that counts: the last one, unless it gives the key up. -/
def get (store : Store) (tree : FileTree) (key : String) :
    Except Failure (Option Cache.Entry) := do
  return (← store.entries tree key).getLast?.filter fun entry => entry.integrity.isSome

/-- Whether there is content for a token. -/
def contains (store : Store) (tree : FileTree) (token : String) : Except Failure Bool := do
  store.hasContent tree (← (Digest.parse token).mapError Digest.Fault.toFailure)

/-- The content for a token, verified once more. -/
def read (store : Store) (tree : FileTree) (token : String) : Except Failure Bytes := do
  let digest ← (Digest.parse token).mapError Digest.Fault.toFailure
  let path := store.contentPath digest
  let data ← (tree.readFile path).mapError (refused "cache_read" path)
  let actual ← (Digest.compute data digest.name).mapError Digest.Fault.toFailure
  if actual.octets = digest.octets then return data
  else .error (.diagnosed (corrupted path token actual.token))

end Store

end LockPrefetch
