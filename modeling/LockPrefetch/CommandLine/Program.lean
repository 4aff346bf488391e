import LockPrefetch.CommandLine.Arguments
import LockPrefetch.CommandLine.Usage
import LockPrefetch.HashTool
import LockPrefetch.Run
import LockPrefetch.Transfer

/-! # The program

What a command line does to a file tree, and what it prints. Without an output directory a
temporary one is populated, hashed and removed again. -/

set_option autoImplicit false

namespace LockPrefetch.CommandLine

/-- What breaks the program off without a report of its own: a failure that is not diagnosed, or
an option that was given nothing for its value. -/
inductive Break where
  | failure (f : Failure)
  | noJobs
  | noReport
deriving DecidableEq, Repr

/-- The wording of a break. -/
def Break.text : Break → String
  | .failure f => f.text
  | .noJobs => "'<' not supported between instances of 'list' and 'int'"
  | .noReport => "expected str, bytes or os.PathLike object, not list"

/-- What the program leaves: its exit code unless it broke off, what it printed, the commands of
the hash tool, the file tree and the warnings given. -/
structure Result where
  ending : Except Break Nat
  output : String
  errors : String
  commands : List (List String)
  tree : FileTree
  warnings : List String

/-- What the program finds around it: the hash tool, the fetcher for a file tree, and the path
of a temporary directory. -/
structure Surroundings where
  hashTool : Option HashTool
  fetcher : FileTree → Fetcher
  temporary : String

/-- The policy that the settings ask for. -/
def policyOf (settings : Settings) : Except Break Policy :=
  let refMode :=
    match settings.mutableRefs with
    | .missing => Policy.RefMode.warn
    | .value text => Policy.RefMode.ofString text
    | .nothing => Policy.RefMode.unknown "[]"
  let make (jobs : Option Int) : Except Break Policy :=
    (Policy.make jobs settings.requireIntegrity refMode).mapError (.failure ∘ .diagnosed)
  match settings.jobs with
  | .missing => make none
  | .value n => make (some n)
  | .nothing => .error .noJobs

/-- The end of the program at a break: a diagnosed failure is printed, anything else goes on to
the caller. -/
def broken (result : Result) (cause : Break) : Result :=
  match cause with
  | .failure (.diagnosed report) =>
    { result with
      ending := .ok 1
      errors := result.errors ++ "error: " ++ report.text ++ "\n" }
  | _ => { result with ending := .error cause }

/-- Writes the report of a run, if one is asked for. -/
def writeReport (settings : Settings) (report : Report) (result : Result) : Result :=
  match settings.report with
  | .missing => result
  | .nothing => broken result .noReport
  | .value path =>
    let (written, after) := (report.write (Path.ofString path)).run result.tree
    match written with
    | .ok () => { result with tree := after }
    | .error fault => broken { result with tree := after } (.failure (.fileTree fault))

/-- A successful result with what a run printed and left. -/
def resultOf {α : Type} (run : Run α) : Result :=
  ⟨.ok 0, "", run.log.echo, [], run.tree, run.warnings⟩

/-- Populates a given output directory. -/
def populate (around : Surroundings) (settings : Settings) (policy : Policy)
    (lockfile out : String) (tree : FileTree) : Result :=
  let run := Run.lockfile lockfile out policy (around.fetcher tree) tree
  match run.outcome with
  | .error failure => broken (resultOf run) (.failure failure)
  | .ok report => writeReport settings report (resultOf run)

/-- A tree with an empty directory at a path, and where that is. -/
def withTemporary (tree : FileTree) (path : String) : FileTree × Location :=
  let (_, made) := (FileTree.ensureDirectories (Path.ofString path)).run tree
  (made, ((made.locate (Path.ofString path)).toOption).getD [])

/-- Populates a temporary output directory and prints its hash. -/
def hashTemporary (around : Surroundings) (settings : Settings) (policy : Policy)
    (lockfile : String) (tree : FileTree) : Result :=
  let (tree, place) := withTemporary tree around.temporary
  let run := Run.lockfile lockfile around.temporary policy (around.fetcher tree) tree
  let result := { resultOf run with tree := run.tree.without place }
  match run.outcome with
  | .error failure => broken result (.failure failure)
  | .ok report =>
    let commands :=
      if around.hashTool.isSome then [HashTool.command around.temporary] else []
    let result := { result with commands }
    match HashTool.hashPath around.hashTool around.temporary with
    | .error report => broken result (.failure (.diagnosed report))
    | .ok hash => writeReport settings report { result with output := hash ++ "\n" }

/-- Does what the settings ask for. -/
def perform (around : Surroundings) (settings : Settings) (tree : FileTree) : Result :=
  match settings.lockfile with
  | none => ⟨.ok 1, usage ++ "\n" ++ description ++ "\n", "", [], tree, []⟩
  | some lockfile =>
    match policyOf settings with
    | .error cause => broken ⟨.ok 0, "", "", [], tree, []⟩ cause
    | .ok policy =>
      match settings.outputDirectory with
      | some out => populate around settings policy lockfile out tree
      | none => hashTemporary around settings policy lockfile tree

/-- Runs the program on a command line. -/
def run (around : Surroundings) (arguments : List String) (tree : FileTree) : Result :=
  match parse arguments with
  | .ok settings => perform around settings tree
  | .error .help => ⟨.ok 0, help, "", [], tree, []⟩
  | .error (.misuse misuse) =>
    ⟨.ok 2, "", usage ++ programName ++ ": error: " ++ misuse.message ++ "\n", [], tree, []⟩

end LockPrefetch.CommandLine
