import LockPrefetch.Json.Value

/-! # Diagnostics

What the program reports when it cannot go on: a kind with a stable code, a message, a hint
where there is one, and a context of named texts in the order in which they were attached.
Attaching never replaces what is there. -/

set_option autoImplicit false

namespace LockPrefetch

/-- The kinds of failure. -/
inductive Diagnostic.Kind where
  | validation
  | lockfile
  | unsupportedSchema
  | urlRewrite
  | integrity
  | ambiguousDigest
  | integrityMismatch
  | fetch
  | cacheIo
  | policy
  | hashTool
deriving DecidableEq, Repr

/-- A report of a failure. -/
structure Diagnostic where
  kind : Diagnostic.Kind
  message : String
  hint : Option String
  context : List (String × String)
deriving DecidableEq, Repr

namespace Diagnostic

/-- The stable code of a kind. -/
def Kind.code : Kind → String
  | .validation => "E_VALIDATION"
  | .lockfile => "E_LOCKFILE"
  | .unsupportedSchema => "E_UNSUPPORTED_SCHEMA"
  | .urlRewrite => "E_URL_REWRITE"
  | .integrity => "E_INTEGRITY"
  | .ambiguousDigest => "E_AMBIGUOUS_DIGEST"
  | .integrityMismatch => "E_INTEGRITY_MISMATCH"
  | .fetch => "E_FETCH"
  | .cacheIo => "E_CACHE_IO"
  | .policy => "E_POLICY"
  | .hashTool => "E_HASH_TOOL"

/-- Whether a kind is about digests. -/
def Kind.isIntegrity : Kind → Bool
  | .integrity | .ambiguousDigest | .integrityMismatch => true
  | _ => false

/-- The whole text: the message, the hint and the context, a line each; what is empty is left
out. -/
def text (d : Diagnostic) : String :=
  let hint :=
    match d.hint with
    | some hint => if hint = "" then [] else ["Hint: " ++ hint]
    | none => []
  let context := (d.context.filter (·.2 != "")).map fun entry =>
    "  " ++ entry.1 ++ ": " ++ entry.2
  "\n".intercalate (d.message :: (hint ++ context))

/-- A diagnostic with further context; a name that is taken keeps its text. -/
def attach (extra : List (String × String)) (d : Diagnostic) : Diagnostic :=
  { d with context := extra.foldl (fun c e => Ordered.putMissing e.1 e.2 c) d.context }

/-- What a name that is attached has as its text: its first one. -/
theorem get?_attach (report : Diagnostic) (key value : String) :
    Ordered.get? key (report.attach [(key, value)]).context =
      some ((Ordered.get? key report.context).getD value) := by
  simp only [attach, List.foldl_cons, List.foldl_nil, Ordered.putMissing]
  cases h : Ordered.get? key report.context with
  | some first => simp [h]
  | none => simpa using Ordered.get?_append_missing h value

/-- A diagnostic as a JSON object; a missing hint is left out. -/
def toJson (d : Diagnostic) : Json.Value :=
  let hint :=
    match d.hint with
    | some hint => [("hint", Json.Value.string hint)]
    | none => []
  .object ([("code", .string d.kind.code), ("message", .string d.text),
    ("context", .object (d.context.map fun entry => (entry.1, .string entry.2)))] ++ hint)

end Diagnostic

end LockPrefetch
