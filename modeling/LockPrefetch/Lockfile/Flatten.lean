import LockPrefetch.Lockfile.Document
import LockPrefetch.Lockfile.Shorthand

/-! # One map for every generation

Whatever its generation, a lockfile amounts to an ordered map from keys to packages. The flat
generations are such maps already. A tree is walked depth first, each dependency before its own
dependencies, and a dependency goes under

    name-version

with the version in canonical form: shorthands are written out, and an alias of the registry
counts as the URL that it was resolved to. A later dependency of the same key replaces an
earlier one and keeps its place. -/

set_option autoImplicit false

namespace LockPrefetch

namespace Dependency

/-- The scheme of registry aliases. -/
def aliasScheme : String := "npm"

/-- The canonical form of a version. -/
def canonicalVersion (d : Dependency) : Except Failure Specifier :=
  match d.version with
  | .other text => .ok (.other text)
  | .url u => do
    let parts ← u.parts.mapError .malformedUrl
    if parts.scheme = aliasScheme then
      match d.package.resolved with
      | some (.url resolved) => return .url resolved
      | _ => return .other u.text
    else return .url (← Shorthand.rewrite u)

/-- The key and the package of a dependency in the flat map. -/
def flatEntry (name : String) (d : Dependency) : Except Failure (String × Package) := do
  let version ← d.canonicalVersion
  let resolved :=
    match version with
    | .url u => some (.url u)
    | .other _ => d.package.resolved
  return (name ++ "-" ++ version.text, ⟨resolved, d.package.integrity⟩)

mutual

/-- The number of dependencies in a tree, the root included. -/
def count : Dependency → Nat
  | .node _ _ none => 1
  | .node _ _ (some children) => 1 + countAll children

/-- The number of dependencies in some trees. -/
def countAll : List (String × Dependency) → Nat
  | [] => 0
  | (_, d) :: rest => d.count + countAll rest

end

theorem countAll_append (xs ys : List (String × Dependency)) :
    countAll (xs ++ ys) = countAll xs + countAll ys := by
  induction xs with
  | nil => simp [countAll]
  | cons x rest ih => simp [countAll, ih, Nat.add_assoc]

theorem count_eq (d : Dependency) : d.count = 1 + countAll d.children := by
  obtain ⟨version, package, _ | children⟩ := d <;>
    simp [count, Dependency.children, children?, countAll]

mutual

/-- The dependencies of a tree in the order in which they are visited: each before its own. -/
def preorder (name : String) : Dependency → List (String × Dependency)
  | .node version package none => [(name, .node version package none)]
  | .node version package (some children) =>
    (name, .node version package (some children)) :: preorderAll children

/-- The dependencies of some trees in the order in which they are visited. -/
def preorderAll : List (String × Dependency) → List (String × Dependency)
  | [] => []
  | (name, d) :: rest => preorder name d ++ preorderAll rest

end

end Dependency

namespace Lockfile

/-- Adds dependencies that are waiting to a map, and everything below them. The dependencies of
the first one are put in front of the others. -/
def flattenInto (map : List (String × Package)) :
    List (String × Dependency) → Except Failure (List (String × Package))
  | [] => .ok map
  | (name, d) :: waiting => do
    let (key, package) ← d.flatEntry name
    flattenInto (Ordered.put key package map) (d.children ++ waiting)
termination_by waiting => Dependency.countAll waiting
decreasing_by
  simp only [Dependency.countAll, Dependency.countAll_append, Dependency.count_eq]
  omega

/-- The flat map of a tree. -/
def flatten (dependencies : List (String × Dependency)) :
    Except Failure (List (String × Package)) :=
  flattenInto [] dependencies

/-- The report on a generation that is not supported. -/
def unsupported (version : Int) : Diagnostic :=
  let version := String.ofList (Text.signedDecimal version)
  ⟨.unsupportedSchema, "Unsupported lockfile version " ++ version ++ ".",
    some "Only lockfileVersion 1, 2 and 3 are understood; please file an issue.",
    [("operation", "normalize"), ("lockfile_version", version)]⟩

/-- The flat map of a lockfile. -/
def normalize (lock : Lockfile) : Except Failure (List (String × Package)) :=
  if lock.version = treeVersion then flatten (lock.dependencies.getD [])
  else if flatVersions.contains lock.version then .ok (lock.packages.getD [])
  else .error (.diagnosed (unsupported lock.version))

end Lockfile

end LockPrefetch
