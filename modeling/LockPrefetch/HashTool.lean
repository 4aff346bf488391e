import LockPrefetch.Diagnostic
import LockPrefetch.Text.Number
import LockPrefetch.Text.Split

/-! # The hash tool

A temporary output directory is of use only by its hash, which a tool outside the program
computes. The tool may be missing and may fail. -/

set_option autoImplicit false

namespace LockPrefetch

/-- How the tool answered: its exit code and what it wrote. -/
structure HashTool.Answer where
  exitCode : Int
  output : String
  errors : String

/-- A tool that is run with arguments. -/
abbrev HashTool := List String → HashTool.Answer

namespace HashTool

/-- The command line that hashes a path. -/
def command (path : String) : List String :=
  ["nix", "--experimental-features", "nix-command", "hash", "path", path]

/-- The most characters of a tool's complaint that are passed on. -/
def complaintLimit : Nat := 2000

/-- The end of a tool's complaint. -/
def complaint (text : String) : String :=
  String.ofList (text.toList.drop (text.toList.length - complaintLimit))

/-- The report on a missing tool. -/
def missing (path : String) : Diagnostic :=
  ⟨.hashTool, "Hashing the output directory requires `nix` in PATH.",
    some "Install Nix or pass an explicit output directory.",
    [("operation", "hash_path"), ("path", path)]⟩

/-- The report on a tool that failed. -/
def failed (path : String) (answer : Answer) : Diagnostic :=
  ⟨.hashTool, "`nix hash path` failed.", some "Check the nix output for details.",
    [("operation", "hash_path"), ("path", path),
     ("returncode", String.ofList (Text.signedDecimal answer.exitCode)),
     ("stderr", complaint answer.errors)]⟩

/-- The hash of a path. -/
def hashPath (tool : Option HashTool) (path : String) : Except Diagnostic String :=
  match tool with
  | none => .error (missing path)
  | some tool =>
    let answer := tool (command path)
    if answer.exitCode = 0 then .ok (String.ofList (Text.strip answer.output.toList))
    else .error (failed path answer)

end HashTool

end LockPrefetch
