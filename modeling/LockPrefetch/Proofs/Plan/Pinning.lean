import LockPrefetch.Proofs.Plan.Gating
import LockPrefetch.Proofs.Url.Archives

/-! # Downloads that are pinned

A policy that refuses mutable refs lets only refs pass that name a commit in full. Such a ref has
no marks, so that the URL of its archive, which is split again before anything is downloaded, asks
for that commit and for nothing else (`pinned_of_make`). -/

set_option autoImplicit false

namespace LockPrefetch

variable {policy : Policy} {ref : String} {fetch : PlannedFetch} {map : List (String × Package)}
  {made : Plan}

/-- The name of a commit holds no marks. -/
theorem Policy.NamesCommit.unmarked (h : Policy.NamesCommit ref) (provider : Provider) :
    provider.Unmarked ref := by
  have hmark : ∀ mark : Char, ¬ (('0' ≤ mark ∧ mark ≤ '9') ∨ ('a' ≤ mark ∧ mark ≤ 'f')) →
      mark ∉ ref.toList := fun mark hmark hmem => hmark (h.2 mark hmem)
  exact ⟨hmark '#' (by decide), Or.inr (hmark '?' (by decide))⟩

namespace Plan

variable {wanted : Wanted}

/-- **A download pins what is asked for**: if that is rewritten to an archive, its ref names a
commit in full, and the URL that is downloaded is split into the parts that ask for this commit of
the repository. -/
def Pins (wanted : Wanted) (fetch : PlannedFetch) : Prop :=
  fetch.package = wanted.package ∧
    ∀ archive, HostedArchive.ofUrl? wanted.url = .ok (some archive) →
      Policy.NamesCommit archive.ref ∧
        ∃ provider user project, Rewrites wanted.url provider user project archive ∧
          Url.split fetch.url = .ok (provider.archiveParts user project archive.ref)

theorem pins_of_plan (hmode : policy.refMode = .refuse)
    (h : (wanted.plan policy).result = .ok fetch) : Pins wanted fetch := by
  obtain ⟨archive?, harchive, hpermits, _, token, _, rfl⟩ := PlannedFetch.plan_eq_ok_iff.1 h
  refine ⟨rfl, fun archive hsome => ?_⟩
  cases harchive.symm.trans hsome
  have hcommit := (hpermits archive rfl).namesCommit hmode
  obtain ⟨provider, user, project, hrewrites⟩ := exists_rewrites harchive
  exact ⟨hcommit, provider, user, project, hrewrites, hrewrites.whole (hcommit.unmarked provider)⟩

/-- **A plan under a policy that refuses mutable refs pins every archive**, without a warning. -/
theorem pinned_of_make (hmode : policy.refMode = .refuse)
    (h : (make policy map).result = .ok made) :
    (make policy map).warnings = [] ∧ List.Forall₂ Pins (wantedOf map) made.fetches := by
  refine ⟨warnings_of_quiet (Or.inr hmode), ?_⟩
  exact (make_eq_ok_iff.1 h).1.imp fun wanted fetch hplan => pins_of_plan hmode hplan

/-- A policy that refuses mutable refs. -/
def refusingPolicy : Policy := { Policy.standard with refMode := .refuse }

/-- The name of a commit. -/
def pinnedCommit : String := "fc5f78d046e8d7cdeb66345a2633c383ab41f525"

/-- A package at a commit and one in a registry. -/
def pinnedMap : List (String × Package) :=
  [("a", ⟨some (.url ⟨"git+ssh://git@GitLab.com:22/foo/bar.git#" ++ pinnedCommit⟩), none⟩),
    ("b", ⟨some (.url ⟨"https://r/b"⟩), none⟩)]

/-- The URL of the archive of the package at a commit asks for the commit. -/
theorem pinned_of_make_commit : ∃ made, (make refusingPolicy pinnedMap).result = .ok made ∧
    made.fetches.map PlannedFetch.url =
      ["https://gitlab.com/foo/bar/repository/archive.tar.gz?ref=" ++ pinnedCommit, "https://r/b"] ∧
    (make refusingPolicy pinnedMap).warnings = [] ∧
    List.Forall₂ Pins (wantedOf pinnedMap) made.fetches := by
  have hplan : (make refusingPolicy pinnedMap).result = .ok
      ⟨[⟨"a", "https://gitlab.com/foo/bar/repository/archive.tar.gz?ref=" ++ pinnedCommit,
          PlannedFetch.keyFor
            ("https://gitlab.com/foo/bar/repository/archive.tar.gz?ref=" ++ pinnedCommit), none⟩,
        ⟨"b", "https://r/b", PlannedFetch.keyFor "https://r/b", none⟩], []⟩ := by
    decide +kernel
  obtain ⟨hquiet, hpins⟩ := pinned_of_make rfl hplan
  exact ⟨_, hplan, rfl, hquiet, hpins⟩

end Plan

end LockPrefetch
