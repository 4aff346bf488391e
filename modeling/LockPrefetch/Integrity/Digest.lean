import LockPrefetch.Bytes.Base64
import LockPrefetch.Bytes.Hex
import LockPrefetch.Failure
import LockPrefetch.Hash.Algorithm
import LockPrefetch.Text.Number

/-! # Digests

A digest names a hash function and says what it yields. As a token it is written

    name-base64?options

where the options, which nothing verifies, may be missing. The name keeps the letter case in
which it was written, also where digests are stored. -/

set_option autoImplicit false

namespace LockPrefetch

/-- A digest: the name of its function as written, and its octets. -/
structure Digest where
  name : String
  octets : Bytes
deriving DecidableEq, Repr

/-- Why a token is not a digest. -/
inductive Digest.Fault where
  | malformed (token : String)
  | unsupported (name token : String)
  | notBase64 (token : String)
  | wrongLength (token : String) (expected actual : Nat)
  | foreignDigits
  | nulInName
deriving DecidableEq, Repr

namespace Digest

/-- The function that is used where no digest is declared. -/
def defaultName : String := "sha512"

/-- The octets in lower-case hexadecimal digits. -/
def hex (d : Digest) : String := Hex.encode d.octets

/-- The token of a digest, without options. -/
def token (d : Digest) : String := d.name ++ "-" ++ Base64.encode d.octets

/-- The fault of a token with a name that no function has. A NUL character in a name stops the
search for its function. -/
def unknown (name token : String) : Fault :=
  if name.toList.any (·.toNat == 0) then .nulInName else .unsupported name token

/-- The function of a name, or the fault of a token that uses it. -/
def algorithm (name token : String) : Except Fault Hash.Algorithm :=
  match Hash.Algorithm.ofName? name with
  | some algorithm => .ok algorithm
  | none => .error (unknown name token)

/-- The digest of a byte string under a named function. -/
def compute (data : Bytes) (name : String) : Except Fault Digest := do
  let algorithm ← algorithm name name
  return ⟨name, algorithm.digest data⟩

/-- Reads a token. -/
def parse (token : String) : Except Fault Digest :=
  match Text.cut '-' token.toList with
  | (name, encoded) =>
    let encoded := (Text.cut '?' (encoded.getD [])).1
    if name.isEmpty || encoded.isEmpty then .error (.malformed token)
    else do
      let algorithm ← algorithm (String.ofList name) token
      if encoded.any (0x80 ≤ ·.toNat) then .error .foreignDigits
      else
        match Base64.decode? encoded with
        | none => .error (.notBase64 token)
        | some octets =>
          if octets.length = algorithm.size then .ok ⟨String.ofList name, octets⟩
          else .error (.wrongLength token algorithm.size octets.length)

namespace Fault

/-- A diagnostic about a token. -/
def diagnostic (message : String) (hint : Option String) (token : String)
    (more : List (String × String)) : Diagnostic :=
  ⟨.integrity, message, hint,
    [("operation", "parse_integrity"), ("integrity", token)] ++ more⟩

/-- A fault as a failure. -/
def toFailure : Fault → Failure
  | .malformed token =>
    .diagnosed (diagnostic "Malformed integrity digest."
      (some "Expected `<algorithm>-<base64 digest>`.") token [])
  | .unsupported name token =>
    .diagnosed (diagnostic ("Unsupported integrity algorithm `" ++ name ++ "`.") none token [])
  | .notBase64 token =>
    .diagnosed (diagnostic "Integrity digest is not valid base64." none token [])
  | .wrongLength token expected actual =>
    .diagnosed (diagnostic "Integrity digest has the wrong length for its algorithm." none token
      [("expected_bytes", String.ofList (Text.decimal expected)),
       ("actual_bytes", String.ofList (Text.decimal actual))])
  | .foreignDigits => .foreignDigits
  | .nulInName => .nulInName

end Fault

end Digest

end LockPrefetch
