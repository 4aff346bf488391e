import LockPrefetch.Bytes.Hex
import LockPrefetch.Encoding.Utf8
import LockPrefetch.Text.LowerCase
import LockPrefetch.Text.Split

/-! # Locators

The text of a URL as a transfer reads it: what it may be wrapped in, the fragment, the scheme,
the host and the path, and the percent escapes in them. -/

set_option autoImplicit false

namespace LockPrefetch.Transfer

/-! ## Percent escapes -/

/-- The octets of a text in which `%` and two hexadecimal digits stand for an octet; other
percent signs stand for themselves. -/
def unescape : Bytes → Bytes
  | [] => []
  | [a] => [a]
  | [a, b] => [a, b]
  | a :: b :: c :: rest =>
    if a = 0x25 then
      match Hex.ofDigits? [Char.ofNat b.toNat, Char.ofNat c.toNat] with
      | some [octet] => octet :: unescape rest
      | _ => a :: unescape (b :: c :: rest)
    else a :: unescape (b :: c :: rest)
termination_by data => data.length

/-- The text of octets, each run that cannot be decoded shown as the replacement character.
`fuel` bounds the number of such runs. -/
def lossy (fuel : Nat) (data : Bytes) : List Char :=
  match fuel, Encoding.Utf8.decode data with
  | _, .ok text => text
  | 0, .error _ => []
  | fuel + 1, .error fault =>
    ((Encoding.Utf8.decode (data.take fault.offset)).toOption.getD []) ++
      Encoding.Utf8.replacement :: lossy fuel (data.drop (fault.offset + fault.length))

/-- A text without percent escapes. -/
def unescapeText (text : List Char) : List Char :=
  let data := unescape (Encoding.Utf8.encode text)
  lossy (data.length + 1) data

/-! ## Parts -/

/-- A URL without the blanks, angle brackets and label that it may be wrapped in. -/
def unwrap (url : List Char) : List Char :=
  let bare := Text.strip url
  let inner :=
    if bare.head? = some '<' ∧ bare.getLast? = some '>' then
      Text.strip (bare.drop 1).dropLast
    else bare
  if "URL:".toList.isPrefixOf inner then Text.strip (inner.drop 4) else inner

/-- A URL without its fragment, and with it; an empty fragment is dropped with its mark. -/
def withoutFragment (url : List Char) : List Char × List Char :=
  match Text.cutLast '#' url with
  | (some body, []) => (body, body)
  | (some body, _) => (body, url)
  | (none, _) => (url, url)

/-- The scheme in lower case and what follows its colon. -/
def scheme? (url : List Char) : Option (List Char × List Char) :=
  match Text.cut ':' url with
  | (scheme, some rest) =>
    if scheme.isEmpty || scheme.contains '/' then none else some (Text.toLower scheme, rest)
  | (_, none) => none

/-- The host after two slashes, if they are there, and the path. -/
def hostAndPath (rest : List Char) : Option (List Char) × List Char :=
  match rest with
  | '/' :: '/' :: place =>
    let ends := fun c => c == '/' || c == '?' || c == '#'
    let path := place.dropWhile (!ends ·)
    let rooted := if path.isEmpty || path.head? = some '/' then path else '/' :: path
    (some (place.takeWhile (!ends ·)), rooted)
  | _ => (none, rest)

/-- A URL taken apart. The host is without percent escapes, and empty if there is none. -/
structure Locator where
  scheme : String
  host : List Char
  path : List Char

/-- Reads a URL without its fragment, if it has a scheme. -/
def Locator.ofBody? (body : List Char) : Option Locator := do
  let (scheme, rest) ← scheme? body
  let (host, path) := hostAndPath rest
  return ⟨String.ofList scheme, unescapeText (host.getD []), path⟩

/-- A host and the digits of the port behind its last colon, if there is one and nothing but
digits follow it; a colon with no digits is dropped. -/
def splitPort (place : List Char) : List Char × Option (List Char) :=
  match Text.cutLast ':' place with
  | (some host, digits) =>
    if digits.all Char.isDigit then (host, if digits.isEmpty then none else some digits)
    else (place, none)
  | (none, _) => (place, none)

end LockPrefetch.Transfer
