import LockPrefetch.Url.Basic

/-! # Specifiers

A lockfile says where a package comes from by a URL or by text that means something to other
tools only, such as a version number. What looks like a URL and can be split is one; all else
stays as written. -/

set_option autoImplicit false

namespace LockPrefetch

/-- Where a package comes from. -/
inductive Specifier where
  | url (u : Url)
  | other (text : String)
deriving DecidableEq, Repr

namespace Specifier

/-- Whether a text begins like a URL: a letter, letters, digits and `+`, `.`, `-`, then a colon
and one more character of the same line. -/
def looksLikeUrl (text : List Char) : Bool :=
  match Text.cut ':' text with
  | (first :: more, some (next :: _)) =>
    first.isAlpha && more.all Url.isSchemeChar && next != '\n'
  | _ => false

/-- Reads a specifier. -/
def parse (text : String) : Specifier :=
  if looksLikeUrl text.toList then
    match Url.parse text with
    | .ok u => .url u
    | .error _ => .other text
  else .other text

/-- A specifier as text. -/
def text : Specifier → String
  | .url u => u.text
  | .other t => t

/-- The URL of a specifier that is one. -/
def url? : Specifier → Option Url
  | .url u => some u
  | .other _ => none

end Specifier

end LockPrefetch
