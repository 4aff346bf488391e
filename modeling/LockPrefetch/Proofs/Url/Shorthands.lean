import LockPrefetch.Lockfile.Shorthand
import LockPrefetch.Proofs.Url.Rejoining
import LockPrefetch.Proofs.Url.Remotes

/-! # Shorthands that are written out

A shorthand is rewritten to the parts of a remote, which are joined and are split whenever one of
them is needed. They are read back as they were put together, whatever path and fragment are,
because the remote has an authority of its own (`legible_remoteParts`). So what becomes of a URL is
said by its parts (`rewritten_of_parts`), and nothing is rewritten twice. -/

set_option autoImplicit false

namespace LockPrefetch

open Url (SpellsScheme isKept)

variable {url remote : Url} {parts : Url.Parts} {word host : String}

namespace Shorthand

/-- **The words of shorthands**, and the hosts that they stand for. -/
def hosts : List (String × String) :=
  [("github", "github.com"), ("bitbucket", "bitbucket.org"), ("gitlab", "gitlab.com")]

theorem host?_eq_some_iff : host? word = some host ↔ (word, host) ∈ hosts := by
  unfold host?
  split <;> simp_all [hosts, eq_comm]

theorem host?_eq_none_iff : host? word = none ↔ ∀ host, (word, host) ∉ hosts := by
  simp only [← host?_eq_some_iff, Option.eq_none_iff_forall_ne_some, ne_eq]

/-! ## Paths of remotes -/

/-- A name with the ending `.git`, which is put there unless it is there already. -/
def withGit (name : String) : String :=
  if ".git".toList <:+ name.toList then name else name ++ ".git"

/-- A path with a slash in front, which is put there unless it is there already. -/
def withSlash (path : String) : String :=
  if "/".toList <+: path.toList then path else "/" ++ path

theorem ending_withGit (name : String) : ".git".toList <:+ (withGit name).toList := by
  unfold withGit
  split
  · assumption
  · rw [String.toList_append]
    exact List.suffix_append _ _

theorem begins_withSlash (path : String) : "/".toList <+: (withSlash path).toList := by
  unfold withSlash
  split
  · assumption
  · rw [String.toList_append]
    exact List.prefix_append _ _

theorem suffix_withSlash (path : String) : path.toList <:+ (withSlash path).toList := by
  unfold withSlash
  split
  · exact List.suffix_refl _
  · rw [String.toList_append]
    exact List.suffix_append _ _

theorem mem_withGit {name : String} {c : Char} (h : c ∈ (withGit name).toList) :
    c ∈ name.toList ∨ c ∈ ".git".toList := by
  unfold withGit at h
  split at h
  · exact Or.inl h
  · rwa [String.toList_append, List.mem_append] at h

theorem mem_withSlash {path : String} {c : Char} (h : c ∈ (withSlash path).toList) :
    c = '/' ∨ c ∈ path.toList := by
  unfold withSlash at h
  split at h
  · exact Or.inr h
  · rw [String.toList_append, List.mem_append] at h
    exact h.imp_left List.mem_singleton.1

theorem slash_prefix_iff {text : List Char} : "/".toList <+: text ↔ text.head? = some '/' := by
  cases text with
  | nil => simp
  | cons c rest => simp [List.cons_prefix_cons, eq_comm]

/-- **The path of a remote** is the path of the shorthand between a slash and an ending. -/
theorem remotePath_eq (path : String) :
    String.ofList (remotePath path.toList) = withSlash (withGit path) := by
  have hgit : (if ".git".toList.isSuffixOf path.toList then path.toList
      else path.toList ++ ".git".toList) = (withGit path).toList := by
    unfold withGit
    split <;> split <;> simp_all
  apply String.toList_inj.1
  rw [remotePath, hgit, String.toList_ofList, withSlash]
  by_cases hslash : "/".toList <+: (withGit path).toList
  · rw [if_pos hslash]
    exact if_pos (slash_prefix_iff.1 hslash)
  · rw [if_neg hslash, if_neg fun h => hslash (slash_prefix_iff.2 h), String.toList_append]
    rfl

/-! ## Remotes -/

/-- **The remote that a shorthand means**, at a host. -/
structure Means (host : String) (short remote : Url.Parts) : Prop where
  scheme : remote.scheme = "git+ssh"
  authority : remote.authority = "git@" ++ host
  begins : "/".toList <+: remote.path.toList
  ending : ".git".toList <:+ remote.path.toList
  path : remote.path = withSlash (withGit short.path)
  query : remote.query = ""
  fragment : remote.fragment = short.fragment

/-- **What rewriting a URL ends in**, by the parts of the URL. -/
structure Rewritten (url : Url) (parts : Url.Parts) : Prop where
  /-- What is no shorthand stays as it is. -/
  other : (∀ host, (parts.scheme, host) ∉ hosts) → rewrite url = .ok url
  /-- A shorthand is refused exactly if its path is made of slashes. -/
  refused : ∀ host, (parts.scheme, host) ∈ hosts →
    ((∃ report, rewrite url = .error (.diagnosed report) ∧ report.kind = .urlRewrite) ↔
      ∀ c ∈ parts.path.toList, c = '/')
  /-- Any other shorthand is written out. -/
  writtenOut : ∀ host, (parts.scheme, host) ∈ hosts → (∃ c ∈ parts.path.toList, c ≠ '/') →
    ∃ remote read, rewrite url = .ok remote ∧ remote.parts = .ok read ∧ Means host parts read
  /-- Nothing is rewritten twice. -/
  again : ∀ remote, rewrite url = .ok remote → rewrite remote = .ok remote

/-- The parts of the remote at a host. -/
def remoteParts (host : String) (parts : Url.Parts) : Url.Parts where
  scheme := "git+ssh"
  authority := "git@" ++ host
  path := withSlash (withGit parts.path)
  query := ""
  fragment := parts.fragment

theorem rewrite_of_other (hparts : url.parts = .ok parts) (h : host? parts.scheme = none) :
    rewrite url = .ok url := by
  simp only [rewrite, hparts, mapError_ok, bind, Except.bind, h, pure, Except.pure]

theorem rewrite_of_slashes (hparts : url.parts = .ok parts) (hhost : (parts.scheme, host) ∈ hosts)
    (hpath : ∀ c ∈ parts.path.toList, c = '/') :
    rewrite url = .error (.diagnosed (noRepository url)) := by
  have hall : parts.path.toList.all (· == '/') = true := by simpa using hpath
  simp only [rewrite, hparts, mapError_ok, bind, Except.bind, host?_eq_some_iff.2 hhost, hall,
    if_true]

/-- **A shorthand is rewritten** to what the parts of the remote are joined to. -/
theorem rewrite_of_path (hparts : url.parts = .ok parts) (hhost : (parts.scheme, host) ∈ hosts)
    (hpath : ∃ c ∈ parts.path.toList, c ≠ '/') :
    rewrite url = .ok ⟨(remoteParts host parts).join⟩ := by
  have hall : ¬ parts.path.toList.all (· == '/') = true := by simpa using hpath
  simp only [rewrite, hparts, mapError_ok, bind, Except.bind, host?_eq_some_iff.2 hhost, hall,
    remotePath_eq]
  rfl

theorem plain_withSlash_withGit {path : String} {c : Char}
    (h : ∀ c ∈ path.toList, isKept c = true ∧ c ≠ '?' ∧ c ≠ '#')
    (hc : c ∈ (withSlash (withGit path)).toList) : isKept c = true ∧ c ≠ '?' ∧ c ≠ '#' := by
  have hgit : ".git".toList.all (fun c => isKept c && c != '?' && c != '#') = true := by decide
  rcases mem_withSlash hc with rfl | hc
  · decide
  · rcases mem_withGit hc with hc | hc
    · exact h c hc
    · simpa [and_assoc] using List.all_eq_true.1 hgit c hc

theorem accepted_host {scheme host : String} (h : host? scheme = some host) :
    Url.Accepted ("git@" ++ host) := by
  unfold host? at h
  split at h <;> cases h <;> exact Url.accepted_of_all (by decide) (by decide)

/-- **The parts of a remote are read back** from what they are joined to. -/
theorem legible_remoteParts (hhost : (parts.scheme, host) ∈ hosts) (hapart : parts.Apart) :
    (remoteParts host parts).Legible := by
  obtain ⟨hplain, hcheck⟩ := accepted_host (host?_eq_some_iff.2 hhost)
  have hscheme : SpellsScheme "git+ssh".toList := ⟨'g', "it+ssh".toList, rfl, by decide, by decide⟩
  have hlower : "git+ssh".toList.map Char.toLower = "git+ssh".toList := by decide
  have hnamed : "git@" ++ host ≠ "" := by
    intro hempty
    have hlist := congrArg String.toList hempty
    simp at hlist
  refine ⟨Or.inr ⟨hscheme, hlower⟩, hnamed, hcheck, fun c hc => ?_, ?_⟩
  · rw [remoteParts, slash_prefix_iff.1 (begins_withSlash _)] at hc
    cases hc
    exact List.mem_singleton_self _
  · constructor
    · exact fun c hc => (hplain c hc).symm
    · exact fun c hc => plain_withSlash_withGit hapart.path hc
    · intro c hc
      cases hc
    · exact hapart.fragment

/-- **Which remote a shorthand means.** -/
theorem means_remoteParts (host : String) (parts : Url.Parts) :
    Means host parts (remoteParts host parts) := by
  refine ⟨rfl, rfl, begins_withSlash _, ?_, rfl, rfl, rfl⟩
  exact (ending_withGit parts.path).trans (suffix_withSlash (withGit parts.path))

/-- **What rewriting returns**: the URL itself, which is no shorthand, or the remote that it
means. -/
theorem rewrite_eq_ok (h : rewrite url = .ok remote) : ∃ parts, url.parts = .ok parts ∧
    ((remote = url ∧ ∀ host, (parts.scheme, host) ∉ hosts) ∨
      ∃ host, (parts.scheme, host) ∈ hosts ∧ remote.parts = .ok (remoteParts host parts)) := by
  cases hparts : url.parts with
  | error fault =>
    rw [rewrite, hparts] at h
    cases h
  | ok parts =>
    refine ⟨parts, rfl, ?_⟩
    cases hhost : host? parts.scheme with
    | none =>
      rw [rewrite_of_other hparts hhost] at h
      cases h
      exact Or.inl ⟨rfl, host?_eq_none_iff.1 hhost⟩
    | some host =>
      rw [host?_eq_some_iff] at hhost
      by_cases hpath : ∀ c ∈ parts.path.toList, c = '/'
      · rw [rewrite_of_slashes hparts hhost hpath] at h
        cases h
      · rw [rewrite_of_path hparts hhost (by simpa using hpath)] at h
        cases h
        exact Or.inr ⟨host, hhost,
          Url.split_join (legible_remoteParts hhost (Url.apart_of_split hparts))⟩

/-- **What a URL is rewritten to can be split.** -/
theorem parts_of_rewrite (h : rewrite url = .ok remote) : ∃ parts, remote.parts = .ok parts := by
  obtain ⟨parts, hparts, ⟨rfl, _⟩ | ⟨host, _, hremote⟩⟩ := rewrite_eq_ok h
  · exact ⟨parts, hparts⟩
  · exact ⟨_, hremote⟩

/-- **Rewriting** a URL that can be split. -/
theorem rewritten_of_parts (hparts : url.parts = .ok parts) : Rewritten url parts := by
  constructor
  · exact fun hother => rewrite_of_other hparts (host?_eq_none_iff.2 hother)
  · intro host hhost
    constructor
    · rintro ⟨report, hreport, _⟩
      by_contra hpath
      rw [rewrite_of_path hparts hhost (by simpa using hpath)] at hreport
      cases hreport
    · exact fun hpath => ⟨_, rewrite_of_slashes hparts hhost hpath, rfl⟩
  · intro host hhost hpath
    have hlegible := legible_remoteParts hhost (Url.apart_of_split hparts)
    exact ⟨_, _, rewrite_of_path hparts hhost hpath, Url.split_join hlegible,
      means_remoteParts host parts⟩
  · intro remote hremote
    obtain ⟨_, _, ⟨rfl, _⟩ | ⟨host, _, hread⟩⟩ := rewrite_eq_ok hremote
    · exact hremote
    · exact rewrite_of_other hread rfl

end Shorthand

end LockPrefetch
