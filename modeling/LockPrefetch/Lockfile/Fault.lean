import LockPrefetch.Diagnostic
import LockPrefetch.FileTree.Basic

/-! # Faults of lockfiles

What can be wrong with a lockfile, from the file to the single field. -/

set_option autoImplicit false

namespace LockPrefetch.Lockfile

/-- Why a lockfile cannot be read. The text in a fault is a dotted location, a package key or,
for a file, its path. -/
inductive Fault where
  | missing (path : String)
  | unreadable (path reason : String)
  | notJson (reason : String)
  | notAnObject
  | badVersion
  | badPackages
  | badPackage (key : String)
  | badDependencies (location : String)
  | badDependency (location : String)
  | noVersion (location : String)
  | badField (name location : String)
deriving DecidableEq, Repr

/-- A diagnostic about a lockfile. -/
def Fault.about (message : String) (hint : Option String) (context : List (String × String)) :
    Diagnostic :=
  ⟨.lockfile, message, hint, context⟩

/-- The report on a fault. -/
def Fault.diagnostic : Fault → Diagnostic
  | .missing path =>
    about "Lockfile does not exist."
      (some "Run `npm install --package-lock-only` to produce one.") [("path", path)]
  | .unreadable path reason =>
    about "Lockfile could not be read." (some reason) [("path", path)]
  | .notJson reason => about "Invalid lockfile JSON." (some reason) []
  | .notAnObject => about "Invalid lockfile payload type." none []
  | .badVersion =>
    about "Invalid lockfile `lockfileVersion` value."
      (some "Regenerate the lockfile with a current npm release.") []
  | .badPackages => about "Invalid lockfile `packages` value." none []
  | .badPackage key => about "Invalid package entry in lockfile." none [("package", key)]
  | .badDependencies location =>
    about "Invalid lockfile `dependencies` value." none [("path", location)]
  | .badDependency location =>
    about "Invalid dependency entry in lockfile." none [("path", location)]
  | .noVersion location =>
    about "Dependency entry is missing a `version` string." none [("path", location)]
  | .badField name location =>
    about ("Invalid lockfile `" ++ name ++ "` value.") none [("path", location)]

end LockPrefetch.Lockfile
