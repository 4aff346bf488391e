import LockPrefetch.Failure
import LockPrefetch.Lockfile.Document
import LockPrefetch.Lockfile.Fault

/-! # Reading lockfiles

From JSON to a lockfile, checking the shape of the section that the generation uses. The other
section is not looked at. In a tree all entries of one level are checked before anything below
them, and what lies below the last entry is checked first. -/

set_option autoImplicit false

namespace LockPrefetch.Lockfile

open Json (Value)

/-! ## Fields -/

/-- A text field that may be missing or null. -/
def textField? (name location : String) (fields : List (String × Value)) :
    Except Fault (Option String) :=
  match Ordered.get? name fields with
  | none | some .null => .ok none
  | some (.string text) => .ok (some text)
  | some _ => .error (.badField name location)

/-- The package that the fields of an entry describe. -/
def packageOf (location : String) (fields : List (String × Value)) : Except Fault Package := do
  let resolved ← textField? "resolved" location fields
  let integrity ← textField? "integrity" location fields
  return ⟨resolved.map Specifier.parse, integrity⟩

/-! ## The flat map -/

/-- An entry of the flat map. -/
def packageEntry (key : String) : Value → Except Fault Package
  | .object fields => packageOf key fields
  | _ => .error (.badPackage key)

/-- The flat map of packages. -/
def packagesOf : Value → Except Fault (List (String × Package))
  | .object members => members.mapM fun (key, item) => do return (key, ← packageEntry key item)
  | _ => .error .badPackages

/-! ## The tree

No recursion follows the depth of a tree. Levels that have been found wait to be read; an entry
is put down before its own level has been read, which it knows by its number. -/

/-- What a dependency says about itself: its version and its package. -/
def dependencyHead (location : String) : Value → Except Fault (Specifier × Package)
  | .object fields =>
    match Ordered.get? "version" fields with
    | some (.string version) => do
      return (Specifier.parse version, ← packageOf location fields)
    | _ => .error (.noVersion location)
  | _ => .error (.badDependency location)

/-- The dependencies of an entry, unless the section is missing or null. -/
def nested? : Value → Option Value
  | .object fields =>
    match Ordered.get? "dependencies" fields with
    | none | some .null => none
    | some value => some value
  | _ => none

/-- The location of an entry below another location. -/
def below (location name : String) : String := location ++ "." ++ name

/-- A dependency whose own level, if it has one, is known by its number. -/
structure Draft where
  version : Specifier
  package : Package
  level? : Option Nat
deriving Repr

/-- A level that waits to be read: the number that it goes under, and where it was found. -/
structure Unread where
  number : Nat
  value : Value
  location : String
deriving Repr

/-- The entries of a level, and the levels that they open, which are numbered from `next` on. -/
def draftsOf (location : String) (next : Nat) :
    List (String × Value) → Except Fault (List (String × Draft) × List Unread)
  | [] => .ok ([], [])
  | (name, item) :: rest => do
    let (version, package) ← dependencyHead (below location name) item
    match nested? item with
    | none =>
      let (drafts, opened) ← draftsOf location next rest
      return ((name, ⟨version, package, none⟩) :: drafts, opened)
    | some value =>
      let (drafts, opened) ← draftsOf location (next + 1) rest
      return ((name, ⟨version, package, some next⟩) :: drafts,
        ⟨next, value, below (below location name) "dependencies"⟩ :: opened)

/-- Puts down a level, and empty levels for what it has opened. -/
def putDown (levels : Array (List (String × Draft))) (number : Nat)
    (drafts : List (String × Draft)) (opened : Nat) : Array (List (String × Draft)) :=
  levels.setIfInBounds number drafts ++ Array.replicate opened []

/-! A level is larger than the levels that it opens together. -/

/-- How much is waiting to be read. -/
noncomputable def unreadSize : List Unread → Nat
  | [] => 0
  | next :: waiting => sizeOf next.value + unreadSize waiting

theorem unreadSize_append (xs ys : List Unread) :
    unreadSize (xs ++ ys) = unreadSize xs + unreadSize ys := by
  induction xs with
  | nil => simp [unreadSize]
  | cons x rest ih => simp [unreadSize, ih, Nat.add_assoc]

theorem unreadSize_reverse (waiting : List Unread) :
    unreadSize waiting.reverse = unreadSize waiting := by
  induction waiting with
  | nil => rfl
  | cons next rest ih =>
    simp only [List.reverse_cons, unreadSize_append, ih, unreadSize]
    omega

theorem sizeOf_nested {item value : Value} (h : nested? item = some value) :
    sizeOf value < sizeOf item := by
  unfold nested? at h
  split at h
  · rename_i fields
    split at h
    · cases h
    · cases h
    · rename_i found _ hfound
      cases h
      have hmember := List.sizeOf_lt_of_mem (Ordered.mem_of_get? hfound)
      simp only [Prod.mk.sizeOf_spec] at hmember
      simp only [Value.object.sizeOf_spec]
      omega
  · cases h

theorem unreadSize_opened {location : String} {next : Nat} {members : List (String × Value)}
    {drafts : List (String × Draft)} {opened : List Unread}
    (h : draftsOf location next members = .ok (drafts, opened)) :
    unreadSize opened ≤ sizeOf members := by
  induction members generalizing next drafts opened with
  | nil =>
    cases h
    simp [unreadSize]
  | cons member rest ih =>
    obtain ⟨name, item⟩ := member
    simp only [draftsOf, bind_eq_ok_iff] at h
    obtain ⟨⟨version, package⟩, _, h⟩ := h
    simp only [List.cons.sizeOf_spec, Prod.mk.sizeOf_spec]
    cases hnested : nested? item with
    | none =>
      simp only [hnested, bind_eq_ok_iff] at h
      obtain ⟨⟨later, more⟩, hrest, h⟩ := h
      cases h
      refine Nat.le_trans (ih hrest) ?_
      omega
    | some value =>
      simp only [hnested, bind_eq_ok_iff] at h
      obtain ⟨⟨later, more⟩, hrest, h⟩ := h
      cases h
      have hlater := ih hrest
      have hvalue := sizeOf_nested hnested
      simp only [unreadSize]
      omega

/-- Reads the levels that are waiting, of which the last one found comes first. -/
def readLevels (levels : Array (List (String × Draft))) :
    List Unread → Except Fault (Array (List (String × Draft)))
  | [] => .ok levels
  | ⟨number, .object members, location⟩ :: waiting =>
    match _h : draftsOf location levels.size members with
    | .error fault => .error fault
    | .ok (drafts, opened) =>
      readLevels (putDown levels number drafts opened.length) (opened.reverse ++ waiting)
  | next :: _ => .error (.badDependencies next.location)
termination_by waiting => unreadSize waiting
decreasing_by
  have hopened := unreadSize_opened _h
  simp only [unreadSize_append, unreadSize_reverse, unreadSize, Value.object.sizeOf_spec]
  omega

/-- The tree of a level. Entries refer to later levels only. -/
def treeAt (levels : Array (List (String × Draft))) (number : Nat) :
    List (String × Dependency) :=
  match _h : levels[number]? with
  | none => []
  | some drafts =>
    drafts.map fun (name, draft) =>
      (name, .node draft.version draft.package (draft.level?.map fun deeper =>
        if number < deeper then treeAt levels deeper else []))
termination_by levels.size - number
decreasing_by
  have := (Array.getElem?_eq_some_iff.1 _h).1
  omega

/-- The tree that a value holds. -/
def treeOf (value : Value) : Except Fault (List (String × Dependency)) := do
  let levels ← readLevels #[[]] [⟨0, value, "dependencies"⟩]
  return treeAt levels 0

/-! ## Documents -/

/-- A section that may be missing or null. -/
def section? {α : Type} (name : String) (read : Value → Except Fault α)
    (fields : List (String × Value)) : Except Fault (Option α) :=
  match Ordered.get? name fields with
  | none | some .null => .ok none
  | some value => do return some (← read value)

/-- The lockfile that a JSON value describes. -/
def ofJson : Value → Except Fault Lockfile
  | .object fields =>
    match Ordered.get? "lockfileVersion" fields with
    | some (.integer version) => do
      let dependencies ←
        if version = treeVersion then section? "dependencies" treeOf fields
        else .ok none
      let packages ←
        if flatVersions.contains version then section? "packages" packagesOf fields
        else .ok none
      return ⟨version, dependencies, packages⟩
    | _ => .error .badVersion
  | _ => .error .notAnObject

/-- A fault as a failure. -/
def failed (fault : Fault) : Failure := .diagnosed fault.diagnostic

/-- The failure of a document that is not JSON. -/
def notJson : Json.Fault → Failure
  | .malformed what place => failed (.notJson (Json.report what place))
  | .oversized digits => .oversizedNumber digits

/-- Reads decoded text. -/
def parseDecoded (document : List Char) : Except Failure Lockfile := do
  let value ← (Json.read document).mapError notJson
  (ofJson value).mapError failed

/-- Reads text, which must not begin with a byte order mark. -/
def parseText (document : String) : Except Failure Lockfile :=
  match document.toList with
  | c :: rest =>
    if c.toNat = 0xfeff then .error (notJson (.malformed .byteOrderMark (Json.Place.behind [])))
    else parseDecoded (c :: rest)
  | [] => parseDecoded []

/-- Reads the octets of a document in any encoding. -/
def parseBytes (document : Bytes) : Except Failure Lockfile :=
  match Encoding.decode document with
  | .error fault => .error (failed (.notJson fault.message))
  | .ok text => parseDecoded text

/-- Reads a lockfile from a file tree; yields its octets as well. -/
def read (tree : FileTree) (path : Path) : Except Failure (Bytes × Lockfile) :=
  match tree.readFile path with
  | .ok document => do return (document, ← parseBytes document)
  | .error fault =>
    match fault.refusal with
    | .noEntry => .error (failed (.missing path.text))
    | .nulCharacter => .error (.fileTree fault)
    | _ => .error (failed (.unreadable path.text fault.message))

end LockPrefetch.Lockfile
