import LockPrefetch.Bytes.Basic
import LockPrefetch.Encoding.Utf8
import LockPrefetch.FileTree.Path
import LockPrefetch.Ordered
import LockPrefetch.Text.Quoted

/-! # File trees

A file tree holds the regular files and directories of a file system, and the place of the
working directory in it. A path is walked name by name: what is walked through has to be a
directory, `..` goes up, and the last name need not exist. What a path leads to follows from
where the walk ends and what stands there. A request that cannot be met is refused with the
reason that an operating system would give. -/

set_option autoImplicit false

namespace LockPrefetch

/-- The names that lead from the root to a place. -/
abbrev Location := List String

/-- What stands at a place. -/
inductive FileTree.Node where
  | file (content : Bytes)
  | directory
deriving DecidableEq, Repr

/-- The files and directories of a file system; the root is a directory that is not listed. -/
structure FileTree where
  nodes : List (Location × FileTree.Node)
  workingDirectory : Location

namespace FileTree

/-! ## Refusals -/

/-- Why a request is refused. -/
inductive Refusal where
  | noEntry
  | fileExists
  | notADirectory
  | isADirectory
  | nameTooLong
  | nulCharacter
deriving DecidableEq, Repr

/-- A refused request, with the text of the path that it was about. -/
structure Fault where
  refusal : Refusal
  path : String
deriving DecidableEq, Repr

/-- Whether a refusal comes from the file system; a NUL character never gets that far. -/
def Fault.isSystem (fault : Fault) : Bool := fault.refusal != .nulCharacter

/-- The number and the wording of a refusal. -/
def Refusal.describe : Refusal → Nat × String
  | .noEntry => (2, "No such file or directory")
  | .fileExists => (17, "File exists")
  | .notADirectory => (20, "Not a directory")
  | .isADirectory => (21, "Is a directory")
  | .nameTooLong => (36, "File name too long")
  | .nulCharacter => (0, "embedded null byte")

/-- The wording of a fault. -/
def Fault.message (fault : Fault) : String :=
  let (number, text) := fault.refusal.describe
  if fault.isSystem then
    "[Errno " ++ toString number ++ "] " ++ text ++ ": " ++ Text.quoted fault.path
  else text

/-! ## Places -/

/-- The most octets in a name. -/
def nameLimit : Nat := 255

/-- The most octets in the text of a path. -/
def pathLimit : Nat := 4095

/-- The octets that a name takes. -/
def octets (name : String) : Nat := (Encoding.Utf8.encode name.toList).length

/-- What stands at a place. -/
def get? (tree : FileTree) (place : Location) : Option Node :=
  match place with
  | [] => some .directory
  | _ => Ordered.get? place tree.nodes

/-- The tree with something else at a place. -/
def set (tree : FileTree) (place : Location) (node : Node) : FileTree :=
  { tree with nodes := Ordered.put place node tree.nodes }

/-- The root is a directory. -/
@[simp] theorem get?_root (tree : FileTree) : tree.get? [] = some .directory := rfl

/-- Setting a place below the root changes that place alone. -/
theorem get?_set (tree : FileTree) {place : Location} (h : place ≠ []) (other : Location)
    (node : Node) :
    (tree.set place node).get? other = if place = other then some node else tree.get? other := by
  cases other with
  | nil => simp [h]
  | cons name rest => exact Ordered.get?_put place (name :: rest) node tree.nodes

/-- Where names lead from a place. -/
def walk (tree : FileTree) (place : Location) : List String → Except Refusal Location
  | [] => .ok place
  | name :: rest =>
    match tree.get? place with
    | none => .error .noEntry
    | some (.file _) => .error .notADirectory
    | some .directory =>
      if name = ".." then walk tree place.dropLast rest
      else if nameLimit < octets name then .error .nameTooLong
      else walk tree (place ++ [name]) rest

/-- Where a path leads. -/
def locate (tree : FileTree) (path : Path) : Except Refusal Location :=
  if path.names.any fun name => name.toList.any (·.toNat == 0) then .error .nulCharacter
  else if pathLimit < octets path.text then .error .nameTooLong
  else
    match path.anchor with
    | .workingDirectory => walk tree tree.workingDirectory path.names
    | _ => walk tree [] path.names

/-- A tree that holds nothing but an empty working directory. Its name is empty, and no path
spells an empty name, so only relative paths lead into it. -/
def empty : FileTree := ⟨[([""], .directory)], [""]⟩

/-! ## Looking -/

/-- What a path leads to, if anything. -/
def lookUp (tree : FileTree) (path : Path) : Except Refusal Node := do
  let place ← tree.locate path
  match tree.get? place with
  | some node => .ok node
  | none => .error .noEntry

/-- A refusal about a path. -/
def about (path : Path) (refusal : Refusal) : Fault := ⟨refusal, path.text⟩

/-- The content of a file. -/
def readFile (tree : FileTree) (path : Path) : Except Fault Bytes :=
  match tree.lookUp path with
  | .ok (.file content) => .ok content
  | .ok .directory => .error (about path .isADirectory)
  | .error refusal => .error (about path refusal)

/-- Whether a path leads to anything. A missing entry and a file in the way mean that it does
not; a name that is too long is refused. -/
def pathExists (tree : FileTree) (path : Path) : Except Fault Bool :=
  match tree.lookUp path with
  | .ok _ => .ok true
  | .error .nameTooLong => .error (about path .nameTooLong)
  | .error _ => .ok false

/-- Whether a path leads to a directory. -/
def isDirectory (tree : FileTree) (path : Path) : Except Fault Bool :=
  match tree.lookUp path with
  | .ok .directory => .ok true
  | .ok (.file _) => .ok false
  | .error .nameTooLong => .error (about path .nameTooLong)
  | .error _ => .ok false

/-- The files below a place with the names that lead to them from there, in the code point
order of their paths. -/
def filesBelow (tree : FileTree) (place : Location) : List (String × Bytes) :=
  let below := tree.nodes.filterMap fun (location, node) =>
    match node with
    | .file content =>
      if place.isPrefixOf location then
        some ("/".intercalate (location.drop place.length), content)
      else none
    | .directory => none
  below.mergeSort fun a b => decide (a.1 ≤ b.1)

/-- The tree without a place and everything below it. -/
def without (tree : FileTree) (place : Location) : FileTree :=
  { tree with nodes := tree.nodes.filter fun node => !place.isPrefixOf node.1 }

end FileTree

end LockPrefetch
