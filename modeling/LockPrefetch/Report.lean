import LockPrefetch.Cbor
import LockPrefetch.FileTree.Action
import LockPrefetch.Json.Writer

/-! # Reports

What a run has fetched and what it has passed over. Written out, a report does not depend on
the order in which packages were fetched: both lists are sorted. -/

set_option autoImplicit false

namespace LockPrefetch

/-- A package that was fetched: from where, its digest and its size. -/
structure FetchedPackage where
  package : String
  url : String
  integrity : String
  size : Int
deriving DecidableEq, Repr

/-- The report of a run. -/
structure Report where
  packages : List FetchedPackage
  skipped : List String
  lockfileVersion : Option Int
  schemaVersion : Int
deriving DecidableEq, Repr

namespace FetchedPackage

/-- A fetched package as a JSON object. -/
def toJson (p : FetchedPackage) : Json.Value :=
  .object [("package", .string p.package), ("url", .string p.url),
    ("integrity", .string p.integrity), ("size", .integer p.size)]

end FetchedPackage

namespace Report

/-- The version of the form in which reports are written. -/
def currentSchema : Int := 1

/-- What was fetched for a package. -/
def fetched? (report : Report) (package : String) : Option FetchedPackage :=
  report.packages.find? (·.package == package)

/-- The packages in the order of their keys. -/
def sortedPackages (report : Report) : List FetchedPackage :=
  report.packages.mergeSort fun a b => decide (a.package ≤ b.package)

/-- The skipped keys in order. -/
def sortedSkipped (report : Report) : List String :=
  report.skipped.mergeSort fun a b => decide (a ≤ b)

/-- What is written of a report. -/
def payload (report : Report) : Json.Value :=
  .object [("schema_version", .integer report.schemaVersion),
    ("lockfile_version", (report.lockfileVersion.map Json.Value.integer).getD .null),
    ("packages", .array (report.sortedPackages.map FetchedPackage.toJson)),
    ("skipped", .array (report.sortedSkipped.map Json.Value.string))]

/-- A report as indented JSON. -/
def toJson (report : Report) : String := report.payload.sorted.render .indented ++ "\n"

/-- A report as canonical CBOR. -/
def toCbor (report : Report) : Bytes := Cbor.encode report.payload

/-- The ending of the paths to which CBOR is written. -/
def binaryEnding : String := ".cbor"

/-- The octets that are written to a path. -/
def contentFor (report : Report) (path : Path) : Bytes :=
  if path.ending = binaryEnding then report.toCbor
  else Encoding.Utf8.encode report.toJson.toList

/-- Writes a report, making the directories above it. -/
def write (report : Report) (path : Path) : FileTree.Action FileTree.Fault Unit := do
  FileTree.ensureDirectories path.parent
  FileTree.writeFile path (report.contentFor path)

end Report

end LockPrefetch
