import LockPrefetch.Text.LowerCase
import LockPrefetch.Text.Quoted
import LockPrefetch.Url.Address

/-! # URLs

A URL is kept as text in canonical form:

    scheme://authority/path?query#fragment

Splitting takes such a text apart; joining puts parts together again. Both are tolerant: any
part may be missing, and most characters may stand anywhere. Canonical text is what joining
makes of the parts of any text. The parts of a URL are always read by splitting its text. -/

set_option autoImplicit false

namespace LockPrefetch

/-- Why a text is not a URL. -/
inductive Url.Malformed where
  | brackets
  | futureAddress
  | bracketedVersion4
  | notAnAddress (host : String)
  | lookalike (authority : String)
deriving DecidableEq, Repr

/-- The wording of a malformation. -/
def Url.Malformed.message : Url.Malformed → String
  | .brackets => "Invalid IPv6 URL"
  | .futureAddress => "IPvFuture address is invalid"
  | .bracketedVersion4 => "An IPv4 address cannot be in brackets"
  | .notAnAddress host =>
    Text.quoted host ++ " does not appear to be an IPv4 or IPv6 address"
  | .lookalike authority =>
    "netloc '" ++ authority ++ "' contains invalid characters under NFKC normalization"

/-- The parts of a URL; a part that is missing is empty. -/
structure Url.Parts where
  scheme : String
  authority : String
  path : String
  query : String
  fragment : String
deriving DecidableEq, Repr

/-- A URL by its canonical text. -/
structure Url where
  text : String
deriving DecidableEq, Repr

namespace Url

/-! ## The authority -/

/-- The host part of an authority and whether it stood in brackets: what follows the last `@`,
either what is between brackets or what precedes the first colon. -/
def hostOf (authority : List Char) : List Char :=
  let (_, place) := Text.cutLast '@' authority
  match Text.cut '[' place with
  | (_, some bracketed) => (Text.cut ']' bracketed).1
  | (_, none) => (Text.cut ':' place).1

/-- A version of address yet to come: `v`, hexadecimal digits, a dot and anything. -/
def isFutureAddress (host : List Char) : Bool :=
  match host with
  | 'v' :: rest =>
    match Text.cut '.' rest with
    | (digits, some more) =>
      !digits.isEmpty && digits.all (fun c => (Hex.value? c).isSome) && !more.isEmpty &&
        !more.contains '\n'
    | _ => false
  | _ => false

/-- Accepts the text that stands in brackets if it is an address of version 6 or later. -/
def checkBracketed (host : List Char) : Except Malformed Unit :=
  if host.head? = some 'v' then
    if isFutureAddress host then .ok () else .error .futureAddress
  else if Address.isVersion4 host then .error .bracketedVersion4
  else if Address.isVersion6 host then .ok ()
  else .error (.notAnAddress (String.ofList host))

/-- Accepts an authority whose brackets, if any, stand around the host and hold an address. -/
def checkBrackets (authority : List Char) : Except Malformed Unit :=
  match authority.contains '[', authority.contains ']' with
  | false, false => .ok ()
  | true, true =>
    let (_, place) := Text.cutLast '@' authority
    match Text.cut '[' place with
    | (before, some bracketed) =>
      let (host, after) := Text.cut ']' bracketed
      if !before.isEmpty then .error .brackets
      else if (after.getD []).head?.any (· != ':') then .error .brackets
      else checkBracketed host
    | (_, none) => checkBracketed (hostOf authority)
  | _, _ => .error .brackets

/-- Characters that turn into one of `/`, `?`, `#`, `@` and `:` when compatible forms of
characters are unified. -/
def lookalikes : List Nat :=
  [0x2047, 0x2048, 0x2049, 0x2100, 0x2101, 0x2105, 0x2106, 0x2a74, 0xfe13, 0xfe16, 0xfe55,
   0xfe56, 0xfe5f, 0xfe6b, 0xff03, 0xff0f, 0xff1a, 0xff1f, 0xff20]

/-- Accepts an authority without characters that could be taken for its delimiters. -/
def checkLookalikes (authority : List Char) : Except Malformed Unit :=
  if authority.any fun c => lookalikes.contains c.toNat then
    .error (.lookalike (String.ofList authority))
  else .ok ()

/-! ## Splitting -/

/-- The text without leading blanks and controls, and without tabs and line ends. -/
def clean (text : List Char) : List Char :=
  (text.dropWhile fun c => c.toNat ≤ 0x20).filter fun c => c != '\t' && c != '\r' && c != '\n'

/-- The characters of a scheme. -/
def isSchemeChar (c : Char) : Bool := c.isAlphanum || c == '+' || c == '.' || c == '-'

/-- The scheme in lower case and what follows its colon; the scheme is empty if the text does
not begin with a letter, scheme characters and a colon. -/
def takeScheme (text : List Char) : List Char × List Char :=
  match Text.cut ':' text with
  | (first :: more, some rest) =>
    if first.isAlpha && more.all isSchemeChar then ((first :: more).map Char.toLower, rest)
    else ([], text)
  | _ => ([], text)

/-- Whether a character ends an authority. -/
def endsAuthority (c : Char) : Bool := c == '/' || c == '?' || c == '#'

/-- The authority after two slashes, and what follows it. -/
def takeAuthority (text : List Char) : List Char × List Char :=
  match text with
  | '/' :: '/' :: rest =>
    (rest.takeWhile (!endsAuthority ·), rest.dropWhile (!endsAuthority ·))
  | _ => ([], text)

/-- Takes a text apart. -/
def split (text : String) : Except Malformed Parts := do
  let (scheme, rest) := takeScheme (clean text.toList)
  let (authority, rest) := takeAuthority rest
  checkBrackets authority
  let (rest, fragment) := Text.cut '#' rest
  let (path, query) := Text.cut '?' rest
  checkLookalikes authority
  return {
    scheme := String.ofList scheme
    authority := String.ofList authority
    path := String.ofList path
    query := String.ofList (query.getD [])
    fragment := String.ofList (fragment.getD []) }

/-! ## Joining -/

/-- The schemes whose URLs name an authority, if only an empty one. -/
def authoritySchemes : List String :=
  ["file", "ftp", "git", "git+ssh", "gopher", "http", "https", "imap", "mms", "nfs", "nntp",
   "prospero", "rsync", "rtsp", "rtspu", "sftp", "shttp", "snews", "svn", "svn+ssh", "telnet",
   "wais", "ws", "wss"]

/-- Whether joined text spells out an authority. -/
def Parts.spellsAuthority (p : Parts) : Bool :=
  p.authority != "" ||
    (authoritySchemes.contains p.scheme && !(['/', '/'].isPrefixOf p.path.toList))

/-- A path as it follows an authority: a slash stands between them. -/
def rooted : List Char → List Char
  | [] => []
  | c :: rest => if c = '/' then c :: rest else '/' :: c :: rest

/-- A mark and a part, or nothing if the part is empty. -/
def marked (mark : Char) (part : String) : List Char :=
  if part = "" then [] else mark :: part.toList

/-- Puts parts together. -/
def Parts.join (p : Parts) : String :=
  let scheme := if p.scheme = "" then [] else p.scheme.toList ++ [':']
  let place :=
    if p.spellsAuthority then '/' :: '/' :: (p.authority.toList ++ rooted p.path.toList)
    else p.path.toList
  String.ofList (scheme ++ place ++ marked '?' p.query ++ marked '#' p.fragment)

/-! ## URLs and their parts -/

/-- The URL that a text denotes. -/
def parse (text : String) : Except Malformed Url := do
  return ⟨(← split text).join⟩

/-- The URL with the given parts. -/
def build (p : Parts) : Url := ⟨p.join⟩

/-- The parts of a URL, read from its text. -/
def parts (u : Url) : Except Malformed Parts := split u.text

/-- The host in lower case, up to a zone; `none` if there is none. -/
def Parts.host? (p : Parts) : Option String :=
  match hostOf p.authority.toList with
  | [] => none
  | host =>
    let name := host.takeWhile (· != '%')
    some (String.ofList (Text.toLower name ++ host.drop name.length))

/-- The fragment, if there is one. -/
def Parts.fragment? (p : Parts) : Option String :=
  if p.fragment = "" then none else some p.fragment

/-- The pieces of the path between slashes, after its leading slash. -/
def Parts.segments (p : Parts) : List String :=
  let path :=
    match p.path.toList with
    | '/' :: rest => rest
    | path => path
  (Text.pieces '/' path).map String.ofList

end Url

end LockPrefetch
