import LockPrefetch.Proofs.Lockfile.Flattening
import LockPrefetch.Proofs.Url.Shorthands

/-! # Flat maps without shorthands

Nothing can be downloaded from an alias of the registry or from a shorthand. In the flat map of a
tree there are none of them: an alias is replaced by the URL that it was resolved to or is no URL
any more, and a shorthand by the remote that it means (`shorthands_written_out`). So the only way
in would be a dependency that was itself resolved to one (`ResolvedDirectly`). -/

set_option autoImplicit false

namespace LockPrefetch.Lockfile

open Dependency
open Shorthand (hosts Rewritten rewritten_of_parts)

variable {tree : List (String × Dependency)} {name : String}
  {d : Dependency} {u remote : Url} {parts : Url.Parts}

/-- The schemes of aliases and of shorthands. -/
def indirectSchemes : List String := aliasScheme :: shorthandSchemes

/-- **A direct URL** can be split, and is neither an alias nor a shorthand. -/
def Direct (u : Url) : Prop := ∃ parts, u.parts = .ok parts ∧ parts.scheme ∉ indirectSchemes

/-- **A tree that was resolved directly**: what a dependency was resolved to is direct if it is a
URL. The versions may be any URLs. -/
def ResolvedDirectly (tree : List (String × Dependency)) : Prop :=
  ∀ name d u, Occurs tree name d → d.package.resolved = some (.url u) → Direct u

theorem mem_shorthandSchemes_iff {scheme : String} :
    scheme ∈ shorthandSchemes ↔ ∃ host, (scheme, host) ∈ hosts := by
  rw [← host?_isSome_iff, Option.isSome_iff_exists]
  exact exists_congr fun host => Shorthand.host?_eq_some_iff

/-- **What a URL is rewritten to is direct**, unless the URL is an alias. -/
theorem direct_of_rewrite (hparts : u.parts = .ok parts) (halias : parts.scheme ≠ aliasScheme)
    (h : Shorthand.rewrite u = .ok remote) : Direct remote := by
  obtain ⟨read, hread, ⟨rfl, hother⟩ | ⟨host, _, hremote⟩⟩ := Shorthand.rewrite_eq_ok h
  · cases hparts.symm.trans hread
    refine ⟨parts, hparts, fun hmem => ?_⟩
    rcases List.mem_cons.1 hmem with hsame | hshort
    · exact halias hsame
    · obtain ⟨host, hhost⟩ := mem_shorthandSchemes_iff.1 hshort
      exact hother host hhost
  · have hscheme : "git+ssh" ∉ indirectSchemes := by decide
    exact ⟨_, hremote, hscheme⟩

/-- **A version in canonical form is direct** if it is a URL. -/
theorem direct_of_canonicalVersion (htree : ResolvedDirectly tree) (hoccurs : Occurs tree name d)
    (h : d.canonicalVersion = .ok (.url u)) : Direct u := by
  obtain ⟨own, parts, _, hparts, ⟨_, hresolved⟩ | ⟨halias, hrewrite⟩⟩ := canonicalVersion_eq_url h
  · exact htree name d u hoccurs hresolved
  · exact direct_of_rewrite hparts halias hrewrite

/-- **Shorthands are written out**, one by one and in a tree: what becomes of a URL is said by its
parts, and all URLs in the flat map of a tree that was resolved directly are direct. -/
theorem shorthands_written_out :
    (∀ u parts, Url.parts u = .ok parts → Rewritten u parts) ∧
    ∀ tree map, ResolvedDirectly tree → flatten tree = .ok map →
      ∀ made ∈ map, ∀ u, made.2.resolved = some (.url u) → Direct u := by
  refine ⟨fun u parts hparts => rewritten_of_parts hparts, ?_⟩
  intro tree map htree hflatten made hmade u hresolved
  obtain ⟨name, d, version, hoccurs, hversion, rfl⟩ := exists_of_mem_flatten hflatten hmade
  cases version with
  | other text => exact htree name d u hoccurs hresolved
  | url own =>
    cases hresolved
    exact direct_of_canonicalVersion htree hoccurs hversion

/-- An alias that was resolved, one that was not, and a shorthand below the first one. -/
def aliased : List (String × Dependency) :=
  [("a", .node (.url ⟨"npm:b@1"⟩) ⟨some (.url ⟨"https://r.org/b.tgz"⟩), none⟩
     (some [("c", .node (.url ⟨"github:u/p#v1"⟩) ⟨none, none⟩ none)])),
   ("d", .node (.url ⟨"npm:e@2"⟩) ⟨none, none⟩ none)]

/-- A shorthand with brackets, a query and slashes on both ends, and the tree above. -/
theorem shorthands_written_out_aliased :
    Rewritten ⟨"gitlab:/[x]//y:z/?q#f@[:"⟩ ⟨"gitlab", "", "/[x]//y:z/", "q", "f@[:"⟩ ∧
    ResolvedDirectly aliased ∧
    ∃ map, flatten aliased = .ok map ∧
      (∀ made ∈ map, ∀ u, made.2.resolved = some (.url u) → Direct u) ∧
      map.map Prod.fst = ["a-https://r.org/b.tgz", "c-git+ssh://git@github.com/u/p.git#v1",
        "d-npm:e@2"] := by
  have hshort : Url.parts ⟨"gitlab:/[x]//y:z/?q#f@[:"⟩ =
      .ok ⟨"gitlab", "", "/[x]//y:z/", "q", "f@[:"⟩ := by decide +kernel
  have htree : ResolvedDirectly aliased := by
    intro name d u hoccurs hresolved
    have hvisit := mem_preorderAll_iff.2 hoccurs
    simp only [aliased, preorderAll, preorder, List.append_nil, List.cons_append, List.nil_append,
      List.mem_cons, Prod.mk.injEq, List.not_mem_nil, or_false] at hvisit
    rcases hvisit with ⟨_, rfl⟩ | ⟨_, rfl⟩ | ⟨_, rfl⟩
    · cases hresolved
      exact ⟨⟨"https", "r.org", "/b.tgz", "", ""⟩, by decide +kernel, by decide⟩
    · cases hresolved
    · cases hresolved
  have hentries : (preorderAll aliased).mapM flatEntryOf =
      .ok [("a-https://r.org/b.tgz", ⟨some (.url ⟨"https://r.org/b.tgz"⟩), none⟩),
        ("c-git+ssh://git@github.com/u/p.git#v1",
          ⟨some (.url ⟨"git+ssh://git@github.com/u/p.git#v1"⟩), none⟩),
        ("d-npm:e@2", ⟨none, none⟩)] := by
    decide +kernel
  have hflatten := flatten_eq_ok_iff.2 ⟨_, hentries, rfl⟩
  obtain ⟨hrewritten, hdirect⟩ := shorthands_written_out
  exact ⟨hrewritten _ _ hshort, htree, _, hflatten, hdirect _ _ htree hflatten, by decide⟩

end LockPrefetch.Lockfile
