import LockPrefetch.FileTree.Action
import LockPrefetch.Json.Writer

/-! # Logs

A log is the sequence of records that a run leaves. As a file it holds one JSON object a line;
everything in a record that could end a line is escaped. -/

set_option autoImplicit false

namespace LockPrefetch

/-- A record of what was done, and about which package. -/
structure LogRecord where
  level : String
  operation : String
  package : Option String
  message : String
  extra : Option (List (String × Json.Value))

/-- Records in the order in which they were made. -/
abbrev Log := List LogRecord

/-- The level of a record that is not about a failure. -/
def LogRecord.usualLevel : String := "info"

/-- A record as a JSON object; `extra` is there only if it was given. -/
def LogRecord.toJson (r : LogRecord) : Json.Value :=
  let extra :=
    match r.extra with
    | some members => [("extra", Json.Value.object members)]
    | none => []
  .object ([("level", .string r.level), ("operation", .string r.operation),
    ("package", (r.package.map Json.Value.string).getD .null),
    ("message", .string r.message)] ++ extra)

namespace Log

/-- The records about a package. -/
def about (log : Log) (package : String) : Log := log.filter (·.package == some package)

/-- The messages as they are echoed while a run goes on, each on lines of its own. -/
def echo (log : Log) : String := String.join (log.map fun r => r.message ++ "\n")

/-- A record as a line, its members in the order of their names. -/
def line (r : LogRecord) : String := r.toJson.sorted.render .line

/-- The log as the text of a file. A log without records is an empty line. -/
def lines (log : Log) : String := "\n".intercalate (log.map line) ++ "\n"

/-- Writes the log to a file, making the directories above it. -/
def write (log : Log) (path : Path) : FileTree.Action FileTree.Fault Unit := do
  FileTree.ensureDirectories path.parent
  FileTree.writeFile path (Encoding.Utf8.encode log.lines.toList)

end Log

end LockPrefetch
