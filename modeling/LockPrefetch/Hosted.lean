import LockPrefetch.Url.Basic

/-! # Hosted repositories

Some code hosts serve the content of a commit, branch or tag as an archive. A git remote on
such a host is downloaded by the archive's URL, for the ref that the remote names:

    github.com      https://codeload.github.com/user/project/tar.gz/ref
    bitbucket.org   https://bitbucket.org/user/project/get/ref.tar.gz
    gitlab.com      https://gitlab.com/user/project/repository/archive.tar.gz?ref=ref
    git.sr.ht       https://git.sr.ht/user/project/archive/ref.tar.gz

A URL that already leads to an archive, names no ref, or lies elsewhere is left alone. -/

set_option autoImplicit false

namespace LockPrefetch

/-- A code host that serves archives. -/
inductive Provider where
  | github
  | bitbucket
  | gitlab
  | sourcehut
deriving DecidableEq, Repr

/-- The archive of a ref. -/
structure HostedArchive where
  url : Url
  ref : String
deriving DecidableEq, Repr

namespace Provider

/-- The provider at a host. -/
def ofHost? : String → Option Provider
  | "github.com" => some .github
  | "bitbucket.org" => some .bitbucket
  | "gitlab.com" => some .gitlab
  | "git.sr.ht" => some .sourcehut
  | _ => none

/-- The ref that a remote names, unless the URL is of another kind. -/
def ref? (provider : Provider) (parts : Url.Parts) : Option String :=
  let segments := parts.segments
  match provider with
  | .github =>
    match segments[2]? with
    | none => parts.fragment?
    | some "tree" => segments[3]?.filter (· != "")
    | some _ => none
  | .bitbucket => if segments[2]? = some "get" then none else parts.fragment?
  | .sourcehut => if segments[2]? = some "archive" then none else parts.fragment?
  | .gitlab =>
    let path := parts.path.toList.drop 1
    if Text.holds "/~/".toList path || Text.holds "/archive.tar.gz".toList path then none
    else parts.fragment?

/-- The URL text of an archive. -/
def archiveText (provider : Provider) (user project ref : String) : String :=
  match provider with
  | .github => "https://codeload.github.com/" ++ user ++ "/" ++ project ++ "/tar.gz/" ++ ref
  | .bitbucket => "https://bitbucket.org/" ++ user ++ "/" ++ project ++ "/get/" ++ ref ++ ".tar.gz"
  | .gitlab =>
    "https://gitlab.com/" ++ user ++ "/" ++ project ++ "/repository/archive.tar.gz?ref=" ++ ref
  | .sourcehut => "https://git.sr.ht/" ++ user ++ "/" ++ project ++ "/archive/" ++ ref ++ ".tar.gz"

end Provider

namespace HostedArchive

/-- The schemes of remotes that can be fetched as archives. -/
def schemes : List String := ["git", "http", "https", "ssh", "git+ssh", "git+https"]

/-- The user and the project that a path begins with; an ending `.git` is not part of the
project's name. -/
def userProject? (parts : Url.Parts) : Option (String × String) :=
  match parts.segments with
  | user :: project :: _ =>
    some (user, String.ofList (Text.withoutEnding ".git".toList project.toList))
  | _ => none

/-- The provider, user, project and ref of a remote that can be fetched as an archive. -/
def source? (parts : Url.Parts) : Option (Provider × String × String × String) := do
  if schemes.contains parts.scheme then
    let provider ← Provider.ofHost? (← parts.host?)
    let (user, project) ← userProject? parts
    let ref ← provider.ref? parts
    return (provider, user, project, ref)
  else none

/-- The archive to download instead of a URL, if there is one. -/
def ofUrl? (url : Url) : Except Url.Malformed (Option HostedArchive) := do
  match source? (← url.parts) with
  | none => return none
  | some (provider, user, project, ref) =>
    return some ⟨← Url.parse (provider.archiveText user project ref), ref⟩

end HostedArchive

end LockPrefetch
