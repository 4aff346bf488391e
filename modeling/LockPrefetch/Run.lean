import LockPrefetch.Cache.Store
import LockPrefetch.Lockfile.Flatten
import LockPrefetch.Lockfile.Reader
import LockPrefetch.Log
import LockPrefetch.Plan
import LockPrefetch.Report

/-! # Runs

A run plans a map of packages, fetches what is planned in the order of the plan, stores it, and
reports. It is all or nothing: the first failure ends it. Running on a lockfile also copies the
lockfile, octet by octet, beside the store, after everything has been fetched. -/

set_option autoImplicit false

namespace LockPrefetch

/-- What gets the content behind a URL. -/
abbrev Fetcher := String → Except Failure Bytes

/-- What a run leaves: its outcome, the file tree, the log, the URLs asked for and the warnings
given. -/
structure Run (α : Type) where
  outcome : Except Failure α
  tree : FileTree
  log : Log
  calls : List String
  warnings : List String

namespace Run

open FileTree (Action)

/-! ## Fetching -/

/-- The record of a download that is about to start. -/
def started (fetch : PlannedFetch) : LogRecord :=
  ⟨LogRecord.usualLevel, "fetch", some fetch.package, fetch.package,
    some [("url", .string fetch.url)]⟩

/-- The record of a package that could not be fetched. -/
def failed (fetch : PlannedFetch) : LogRecord :=
  ⟨"error", "prefetch", some fetch.package, "failed to prefetch " ++ fetch.package, none⟩

/-- Downloads and stores one package. A diagnosed failure is told which package it is about. -/
def fetchOne (store : Store) (fetcher : Fetcher) (fetch : PlannedFetch) :
    Action Failure FetchedPackage :=
  Action.restating (Failure.attach [("package", fetch.package)]) do
    let data ← Action.inspect fun _ => fetcher fetch.url
    let integrity ← store.put fetch.cacheKey fetch.url data fetch.integrity
    return ⟨fetch.package, fetch.url, integrity, data.length⟩

/-- Downloads and stores packages one after another, up to the first failure. -/
def fetchAll (store : Store) (fetcher : Fetcher) :
    List PlannedFetch → FileTree → Run (List FetchedPackage)
  | [], tree => ⟨.ok [], tree, [], [], []⟩
  | fetch :: rest, tree =>
    match (fetchOne store fetcher fetch).run tree with
    | (.error failure, after) =>
      ⟨.error failure, after, [started fetch, failed fetch], [fetch.url], []⟩
    | (.ok package, after) =>
      let later := fetchAll store fetcher rest after
      ⟨later.outcome.map (package :: ·), later.tree, started fetch :: later.log,
        fetch.url :: later.calls, []⟩

/-! ## Running -/

/-- Plans and fetches a map of packages. -/
def packages (store : Store) (policy : Policy) (fetcher : Fetcher)
    (lockfileVersion : Option Int) (map : List (String × Package)) (tree : FileTree) :
    Run Report :=
  match Plan.make policy map with
  | ⟨.error failure, warnings⟩ => ⟨.error failure, tree, [], [], warnings⟩
  | ⟨.ok plan, warnings⟩ =>
    let fetched := fetchAll store fetcher plan.fetches tree
    ⟨fetched.outcome.map fun packages =>
        ⟨packages, plan.skipped, lockfileVersion, Report.currentSchema⟩,
      fetched.tree, fetched.log, fetched.calls, warnings⟩

/-! ## Running on a lockfile -/

/-- The directory of the store below the output directory. -/
def storeDirectory : String := "_cacache"

/-- The name of the copied lockfile. -/
def lockfileName : String := "package-lock.json"

/-- The record of a lockfile that has been read. -/
def lockfileRead (path : String) (lock : Lockfile) : LogRecord :=
  ⟨LogRecord.usualLevel, "read_lockfile", none,
    "lockfile version: " ++ String.ofList (Text.signedDecimal lock.version),
    some [("path", .string path)]⟩

/-- The failure to copy the lockfile. -/
def notCopied (path : Path) (fault : FileTree.Fault) : Failure :=
  if fault.isSystem then
    .diagnosed ⟨.cacheIo, "Could not copy the lockfile into the output directory.",
      some fault.message, [("operation", "prefetch"), ("path", path.text)]⟩
  else .fileTree fault

/-- Copies the octets of a lockfile into the output directory. -/
def copyLockfile (out : Path) (document : Bytes) : Action Failure Unit :=
  let copy := out.join lockfileName
  Action.restating (notCopied copy) do
    FileTree.ensureDirectories out
    FileTree.writeFile copy document

/-- Reads a lockfile, fetches its packages into the output directory and copies it there. -/
def lockfile (path out : String) (policy : Policy) (fetcher : Fetcher) (tree : FileTree) :
    Run Report :=
  match Lockfile.read tree (Path.ofString path) with
  | .error failure => ⟨.error failure, tree, [], [], []⟩
  | .ok (document, lock) =>
    let first := lockfileRead path lock
    match lock.normalize with
    | .error failure => ⟨.error failure, tree, [first], [], []⟩
    | .ok map =>
      let out := Path.ofString out
      let store : Store := ⟨out.join storeDirectory⟩
      let run := packages store policy fetcher (some lock.version) map tree
      match run.outcome with
      | .error _ => { run with log := first :: run.log }
      | .ok report =>
        let (copied, after) := (copyLockfile out document).run run.tree
        { run with outcome := copied.map fun _ => report, tree := after, log := first :: run.log }

end Run

end LockPrefetch
