import LockPrefetch.CommandLine.Program

/-! # The command line

The outer layer. What a run may look at is brought from the disk into a file tree, the program
runs on that tree, and what it has changed is brought back. A first run, whose result is
dropped, shows which places the program writes to; they may hold something already.

No hash tool and no network are at hand here, so a run without an output directory ends with the
report that says so, and so does a package that has to be fetched from another machine. -/

set_option autoImplicit false

namespace LockPrefetch.Disk

/-- The text of a place. -/
def text (place : Location) : String := "/" ++ "/".intercalate place

/-- What stands at a place. What can be entered is a directory. -/
def node? (place : Location) : IO (Option FileTree.Node) := do
  match ← (IO.FS.realPath (text place ++ "/.")).toBaseIO with
  | .ok _ => return some .directory
  | .error _ =>
    match ← (IO.FS.readBinFile (text place)).toBaseIO with
    | .ok content => return some (.file content.toList)
    | .error _ => return none

/-- Brings what stands along a walk from a place into a tree. -/
def loadAlong (tree : FileTree) (place : Location) : List String → IO FileTree
  | [] => return tree
  | ".." :: rest => loadAlong tree place.dropLast rest
  | name :: rest => do
    match ← node? (place ++ [name]) with
    | some node => loadAlong (tree.set (place ++ [name]) node) (place ++ [name]) rest
    | none => return tree

/-- Brings what stands along a path into a tree. -/
def load (tree : FileTree) (path : Path) : IO FileTree :=
  match path.anchor with
  | .workingDirectory => loadAlong tree [] (tree.workingDirectory ++ path.names)
  | _ => loadAlong tree [] path.names

/-- Brings to the disk what a run has made of a tree. -/
def save (before after : FileTree) : IO Unit := do
  for (place, node) in after.nodes do
    if before.get? place ≠ some node then
      match node with
      | .directory => IO.FS.createDirAll (text place)
      | .file content => IO.FS.writeBinFile (text place) ⟨content.toArray⟩

end LockPrefetch.Disk

namespace LockPrefetch.CommandLine

/-- The surroundings of a program that runs on its own. -/
def alone : Surroundings where
  hashTool := none
  fetcher := Transfer.download
  temporary := "/tmp/" ++ programName

/-- The local files that the packages of a lockfile come from. -/
def localSources (lockfile : String) (tree : FileTree) : List Path :=
  let urls := do
    let (_, lock) ← Lockfile.read tree (Path.ofString lockfile)
    let plan ← (Plan.make Policy.standard (← lock.normalize)).result
    return plan.fetches.map PlannedFetch.url
  (urls.toOption.getD []).filterMap Transfer.localPath?

/-- Brings what a run on some arguments may look at into a tree. -/
def gather (arguments : List String) (start : FileTree) : IO FileTree := do
  let lockfile := ((parse arguments).toOption.bind Settings.lockfile).getD ""
  let tree ← Disk.load start (Path.ofString lockfile)
  let tree ← (localSources lockfile tree).foldlM Disk.load tree
  let places := (run alone arguments tree).tree.nodes.map Prod.fst
  places.foldlM (fun tree place => Disk.loadAlong tree [] place) tree

/-- The end of the program as an exit code, with the text of a break. -/
def Result.exit (result : Result) : IO UInt32 := do
  match result.ending with
  | .ok code => return UInt32.ofNat code
  | .error cause =>
    IO.eprintln cause.text
    return 1

end LockPrefetch.CommandLine

open LockPrefetch in
/-- Runs the program on the files of the disk. -/
def main (arguments : List String) : IO UInt32 := do
  let workingDirectory := Path.namesOf (toString (← IO.currentDir))
  let tree ← CommandLine.gather arguments ⟨[], workingDirectory⟩
  let result := CommandLine.run CommandLine.alone arguments tree
  Disk.save tree result.tree
  IO.print result.output
  IO.eprint result.errors
  for warning in result.warnings do
    IO.eprintln ("warning: " ++ warning)
  result.exit
