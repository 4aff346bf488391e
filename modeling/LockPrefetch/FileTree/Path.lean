import LockPrefetch.Text.Split

/-! # Paths

A path is a list of names, read from where it is anchored: the working directory, the root, or
the root written with two slashes. Empty names and `.` are dropped when a path is read, `..` is
kept, because it depends on the file tree where it leads. -/

set_option autoImplicit false

namespace LockPrefetch

/-- Where a path starts. -/
inductive Path.Anchor where
  | workingDirectory
  | root
  | doubleRoot
deriving DecidableEq, Repr

/-- A path. -/
structure Path where
  anchor : Path.Anchor
  names : List String
deriving DecidableEq, Repr

namespace Path

/-- The names that a text holds between slashes. -/
def namesOf (text : String) : List String :=
  ((Text.pieces '/' text.toList).map String.ofList).filter fun name => name != "" && name != "."

/-- Where a text is anchored: exactly two leading slashes differ from any other number. -/
def anchorOf (text : List Char) : Anchor :=
  match text with
  | '/' :: '/' :: '/' :: _ => .root
  | '/' :: '/' :: _ => .doubleRoot
  | '/' :: _ => .root
  | _ => .workingDirectory

/-- Reads a path. -/
def ofString (text : String) : Path := ⟨anchorOf text.toList, namesOf text⟩

/-- The text of an anchor in front of the names. -/
def Anchor.text : Anchor → String
  | .workingDirectory => ""
  | .root => "/"
  | .doubleRoot => "//"

/-- A path as text; the working directory is a single dot. -/
def text (p : Path) : String :=
  match p.anchor, p.names with
  | .workingDirectory, [] => "."
  | anchor, names => anchor.text ++ "/".intercalate names

/-- The path that a text denotes below another path; an anchored text starts anew. -/
def join (p : Path) (text : String) : Path :=
  let q := ofString text
  match q.anchor with
  | .workingDirectory => ⟨p.anchor, p.names ++ q.names⟩
  | _ => q

/-- The path without its last name. -/
def parent (p : Path) : Path := ⟨p.anchor, p.names.dropLast⟩

/-- The last name, empty if there is none. -/
def name (p : Path) : String := p.names.getLast?.getD ""

/-- The ending of the last name from its last dot on; empty if the dot comes first or last. -/
def ending (p : Path) : String :=
  match Text.cutLast '.' p.name.toList with
  | (some (_ :: _), c :: rest) => String.ofList ('.' :: c :: rest)
  | _ => ""

end Path

end LockPrefetch
