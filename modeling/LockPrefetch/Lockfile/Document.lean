import LockPrefetch.Specifier

/-! # Lockfiles

A lockfile pins every package of a project. The first generation holds a tree of dependencies,
in which a dependency may have dependencies of its own; the second and third generations hold
a flat map of packages. -/

set_option autoImplicit false

namespace LockPrefetch

/-- Where to download a package, and the digests that it has to match. -/
structure Package where
  resolved : Option Specifier
  integrity : Option String
deriving DecidableEq, Repr

/-- A dependency of the first generation. -/
inductive Dependency where
  | node (version : Specifier) (package : Package)
      (children : Option (List (String × Dependency)))
deriving Repr

/-- A lockfile, with the section that its generation reads. -/
structure Lockfile where
  version : Int
  dependencies : Option (List (String × Dependency))
  packages : Option (List (String × Package))
deriving Repr

namespace Dependency

/-- The version, which may be a specifier of its own. -/
def version : Dependency → Specifier
  | .node version _ _ => version

/-- Where the dependency was resolved to, and its digests. -/
def package : Dependency → Package
  | .node _ package _ => package

/-- The dependencies of a dependency; an empty section differs from a missing one. -/
def children? : Dependency → Option (List (String × Dependency))
  | .node _ _ children => children

/-- The dependencies of a dependency. -/
def children (d : Dependency) : List (String × Dependency) := d.children?.getD []

end Dependency

namespace Lockfile

/-- The generation that holds a tree. -/
def treeVersion : Int := 1

/-- The generations that hold a flat map. -/
def flatVersions : List Int := [2, 3]

end Lockfile

end LockPrefetch
