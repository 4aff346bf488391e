import LockPrefetch.Integrity.Digest

/-! # Selecting a digest

A lockfile may offer several digests for one package, separated by blanks. A single one is
taken as it is; of several, the first one of the strongest kind that is understood. -/

set_option autoImplicit false

namespace LockPrefetch.Digest

/-- The beginnings of tokens that are preferred, strongest first. -/
def preferred : List String := ["sha512-", "sha1-"]

/-- The first token with a given beginning. -/
def firstWith (tokens : List (List Char)) (beginning : String) : Option (List Char) :=
  tokens.find? fun token => beginning.toList.isPrefixOf token

/-- The token that content is verified against; `none` if there is no telling. -/
def select? (field : String) : Option String :=
  match Text.words field.toList with
  | [token] => some (String.ofList token)
  | tokens => (preferred.findSome? (firstWith tokens)).map String.ofList

/-- The report on an integrity field without a token to select. -/
def ambiguous (field : String) : Diagnostic :=
  ⟨.ambiguousDigest, "Not sure which hash to select from the integrity field.",
    some "Expected a single digest, or one prefixed with `sha512-` or `sha1-`.",
    [("operation", "select_digest"), ("integrity", field)]⟩

/-- Selects the token that content is verified against. -/
def select (field : String) : Except Diagnostic String :=
  match select? field with
  | some token => .ok token
  | none => .error (ambiguous field)

end LockPrefetch.Digest
