import LockPrefetch.Hosted
import LockPrefetch.Integrity.Selection
import LockPrefetch.Lockfile.Document
import LockPrefetch.Policy

/-! # Planning

Before anything is fetched, every package of the map is planned: hosted remotes become archive
URLs, the policy is applied, and the digest to verify is selected. Each entry is planned by
itself, in the order of the map; the first one that cannot be planned ends the planning. The
entry with the empty key stands for the project itself and is left out. -/

set_option autoImplicit false

namespace LockPrefetch

/-- A download to be made: for which package, from where, under which key it is stored, and the
digest that it has to match. -/
structure PlannedFetch where
  package : String
  url : String
  cacheKey : String
  integrity : Option String
deriving DecidableEq, Repr

/-- The downloads to be made, and the keys for which there is nothing to download. -/
structure Plan where
  fetches : List PlannedFetch
  skipped : List String
deriving DecidableEq, Repr

/-- What planning yields: a result, and the warnings given on the way. -/
structure Planned (α : Type) where
  result : Except Failure α
  warnings : List String

namespace PlannedFetch

/-- What the keys of stored downloads begin with. -/
def cacheNamespace : String := "make-fetch-happen:request-cache"

/-- The key under which a download is stored. -/
def keyFor (url : String) : String := cacheNamespace ++ ":" ++ url

/-- The download of a package from a URL that policy has nothing against. -/
def ofUrl (policy : Policy) (package : String) (url : Url) (integrity : Option String) :
    Except Failure PlannedFetch := do
  (policy.checkIntegrity package integrity).mapError .diagnosed
  let token ← integrity.mapM fun field => (Digest.select field).mapError .diagnosed
  return ⟨package, url.text, keyFor url.text, token⟩

/-- Plans the download of one package. -/
def plan (policy : Policy) (package : String) (url : Url) (integrity : Option String) :
    Planned PlannedFetch :=
  match HostedArchive.ofUrl? url with
  | .error fault => ⟨.error (.malformedUrl fault), []⟩
  | .ok none => ⟨ofUrl policy package url integrity, []⟩
  | .ok (some archive) =>
    match policy.checkRef package archive.ref with
    | .error report => ⟨.error (.diagnosed report), []⟩
    | .ok warnings => ⟨ofUrl policy package archive.url integrity, warnings⟩

end PlannedFetch

namespace Plan

/-- The plan with a download in front. -/
def withFetch (fetch : PlannedFetch) (plan : Plan) : Plan :=
  { plan with fetches := fetch :: plan.fetches }

/-- The plan with a skipped key in front. -/
def withSkipped (key : String) (plan : Plan) : Plan :=
  { plan with skipped := key :: plan.skipped }

/-- Plans a map of packages. -/
def make (policy : Policy) : List (String × Package) → Planned Plan
  | [] => ⟨.ok ⟨[], []⟩, []⟩
  | (key, package) :: rest =>
    if key = "" then make policy rest
    else
      match package.resolved with
      | some (.url url) =>
        match PlannedFetch.plan policy key url package.integrity with
        | ⟨.error failure, warnings⟩ => ⟨.error (failure.attach [("package", key)]), warnings⟩
        | ⟨.ok fetch, warnings⟩ =>
          let later := make policy rest
          ⟨later.result.map (withFetch fetch), warnings ++ later.warnings⟩
      | _ =>
        let later := make policy rest
        ⟨later.result.map (withSkipped key), later.warnings⟩

end Plan

end LockPrefetch
