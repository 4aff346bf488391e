import LockPrefetch.Failure

/-! # Git shorthands

A dependency on a hosted repository may be written short, as in `github:user/project#ref`. The
remote that it means is

    git+ssh://git@host/user/project.git#ref -/

set_option autoImplicit false

namespace LockPrefetch.Shorthand

/-- The host that a shorthand scheme stands for. -/
def host? : String → Option String
  | "github" => some "github.com"
  | "bitbucket" => some "bitbucket.org"
  | "gitlab" => some "gitlab.com"
  | _ => none

/-- The path of a remote: it begins with a slash and ends in `.git`. -/
def remotePath (path : List Char) : List Char :=
  let named := if ".git".toList.isSuffixOf path then path else path ++ ".git".toList
  if named.head? = some '/' then named else '/' :: named

/-- The report on a shorthand without a repository. -/
def noRepository (specifier : Url) : Diagnostic :=
  ⟨.urlRewrite, "Git shorthand specifier has no repository path.",
    some "Expected `<provider>:<user>/<project>[#<ref>]`.",
    [("operation", "normalize"), ("specifier", specifier.text)]⟩

/-- The remote that a shorthand means; any other URL stays as it is. -/
def rewrite (specifier : Url) : Except Failure Url := do
  let parts ← specifier.parts.mapError .malformedUrl
  match host? parts.scheme with
  | none => return specifier
  | some host =>
    let path := parts.path.toList
    if path.all (· == '/') then .error (.diagnosed (noRepository specifier))
    else
      return Url.build {
        scheme := "git+ssh"
        authority := "git@" ++ host
        path := String.ofList (remotePath path)
        query := ""
        fragment := parts.fragment }

end LockPrefetch.Shorthand
