import LockPrefetch.Diagnostic
import LockPrefetch.Text.Number

/-! # Policy

How many downloads may run at once, whether every package has to declare a digest, and what
becomes of dependencies on a branch or a tag, whose content may change. -/

set_option autoImplicit false

namespace LockPrefetch

/-- What becomes of a dependency on a mutable ref. A mode that is not known is kept until a
mutable ref turns up. -/
inductive Policy.RefMode where
  | warn
  | refuse
  | allow
  | unknown (text : String)
deriving DecidableEq, Repr

/-- A policy. -/
structure Policy where
  maxWorkers : Option Int
  requireIntegrity : Bool
  refMode : Policy.RefMode
  maxWorkers_pos : ∀ n ∈ maxWorkers, 1 ≤ n

namespace Policy

/-- Reads a mode. -/
def RefMode.ofString : String → RefMode
  | "warn" => .warn
  | "error" => .refuse
  | "allow" => .allow
  | text => .unknown text

/-- A mode as text. -/
def RefMode.text : RefMode → String
  | .warn => "warn"
  | .refuse => "error"
  | .allow => "allow"
  | .unknown text => text

/-- The policy where nothing is asked for. -/
def standard : Policy := ⟨none, false, .warn, by simp⟩

/-- Makes a policy; a number of workers has to be positive. -/
def make (maxWorkers : Option Int) (requireIntegrity : Bool) (refMode : RefMode) :
    Except Diagnostic Policy :=
  match maxWorkers with
  | none => .ok ⟨none, requireIntegrity, refMode, by simp⟩
  | some n =>
    if h : 1 ≤ n then
      .ok ⟨some n, requireIntegrity, refMode, by intro m hm; cases hm; exact h⟩
    else
      .error ⟨.validation, "Policy max_workers must be a positive integer.", none,
        [("max_workers", String.ofList (Text.signedDecimal n))]⟩

/-! ## Rules -/

/-- Whether a ref is a full commit name, which always means the same content: forty lower-case
hexadecimal digits. -/
def isCommit (ref : String) : Bool :=
  ref.toList.length == 40 &&
    ref.toList.all fun c => ('0' ≤ c && c ≤ '9') || ('a' ≤ c && c ≤ 'f')

/-- The warning about a mutable ref. -/
def refWarning (package ref : String) : String :=
  "Hosted git dependency `" ++ package ++ "` uses mutable ref `" ++ ref ++
    "`; its tarball is not inherently reproducible."

/-- The report on a mutable ref that is refused. -/
def refRefused (package ref : String) : Diagnostic :=
  ⟨.policy, "Mutable git refs are not allowed by policy.",
    some "Pin the dependency to a full 40-char commit SHA or relax mutable_ref_policy.",
    [("operation", "prefetch"), ("package", package), ("ref", ref)]⟩

/-- Judges the ref of a hosted dependency; yields the warnings to be given. -/
def checkRef (policy : Policy) (package ref : String) : Except Diagnostic (List String) :=
  if isCommit ref then .ok []
  else
    match policy.refMode with
    | .allow => .ok []
    | .warn => .ok [refWarning package ref]
    | .refuse => .error (refRefused package ref)
    | .unknown text =>
      .error ⟨.validation, "Unsupported mutable_ref_policy value: " ++ text, none, []⟩

/-- Judges whether a package may do without a digest. -/
def checkIntegrity (policy : Policy) (package : String) (integrity : Option String) :
    Except Diagnostic Unit :=
  if integrity.isNone && policy.requireIntegrity then
    .error ⟨.policy, "Package has no integrity digest and policy requires one.",
      some "Regenerate the lockfile or relax policy.require_integrity.",
      [("operation", "prefetch"), ("package", package)]⟩
  else .ok ()

end Policy

end LockPrefetch
