import LockPrefetch.Cache.Entry
import LockPrefetch.Failure
import LockPrefetch.Hash.Algorithm
import LockPrefetch.Json.Reader
import LockPrefetch.Json.Writer

/-! # Buckets

A bucket is a file of records, each on a line of its own:

    LF checksum TAB record

The record is compact JSON, the checksum its SHA-1 digest in hexadecimal digits. Lines that do
not check out and records of other keys are passed over, so a damaged line costs only itself, as
long as it is text. Any of the three customary line ends is understood. -/

set_option autoImplicit false

namespace LockPrefetch.Cache.Bucket

open Json (Value)

/-! ## Writing -/

/-- The time in every record that is written: output is the same whenever it is made. -/
def writtenTime : Int := 0

/-- The record of stored content. -/
def record (key url integrity : String) (size : Nat) : Value :=
  .object [("key", .string key), ("integrity", .string integrity),
    ("time", .integer writtenTime), ("size", .integer size),
    ("metadata", .object [("url", .string url),
      ("options", .object [("compress", .bool true)])])]

/-- The checksum of a record. -/
def checksum (record : List Char) : List Char :=
  Hex.digits (Hash.Algorithm.sha1.digest (Encoding.Utf8.encode record))

/-- The line of a record. -/
def line (record : List Char) : List Char := '\n' :: checksum record ++ '\t' :: record

/-! ## Reading -/

/-- A text in which every line end is a line feed. -/
def unifyLineEnds : List Char → List Char
  | [] => []
  | '\r' :: '\n' :: rest => '\n' :: unifyLineEnds rest
  | '\r' :: rest => '\n' :: unifyLineEnds rest
  | c :: rest => c :: unifyLineEnds rest

/-- The members of a line's record; `none` if the line does not check out. A number with too
many digits fails the whole reading. -/
def membersOf? (line : List Char) : Except Failure (Option (List (String × Value))) :=
  match Text.cut '\t' line with
  | (sum, some record) =>
    if checksum record = sum then
      match Json.read record with
      | .ok (.object members) => .ok (some members)
      | .ok _ => .ok none
      | .error (.malformed _ _) => .ok none
      | .error (.oversized digits) => .error (.oversizedNumber digits)
    else .ok none
  | (_, none) => .ok none

/-- The entry of a key in a line. -/
def entryOf? (key : String) (line : List Char) : Except Failure (Option Entry) := do
  match ← membersOf? line with
  | none => return none
  | some members =>
    if (Ordered.get? "key" members).bind Value.string? = some key then
      return Entry.ofRecord? members
    else return none

/-- The entries of a key in the text of a bucket, in the order of their lines. -/
def entriesOf (key : String) (text : List Char) : Except Failure (List Entry) := do
  let found ← (Text.pieces '\n' (unifyLineEnds text)).mapM (entryOf? key)
  return found.filterMap id

end LockPrefetch.Cache.Bucket
