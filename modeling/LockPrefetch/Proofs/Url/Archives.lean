import LockPrefetch.Plan
import LockPrefetch.Proofs.Url.Rejoining
import LockPrefetch.Proofs.Url.Remotes

/-! # Archives of repositories

A remote is rewritten to an archive of the repository that its host and the first two segments of
its path name (`Rewrites`). Host, user and project are read back from the URL of the archive
(`Rewrites.exists_sent`), because a segment of a path holds no slash and no mark. But the ref is
put into that URL as it is. One without marks is read back as a whole, and the URL has the parts
that the provider looks for (`Rewrites.whole`). One with a mark is cut off there, since the mark
ends the part of the URL in which it stands (`unmarked_of_carries`). -/

set_option autoImplicit false

namespace LockPrefetch

open Url (isKept endsAuthority Begins)

variable {url : Url} {parts otherParts sent : Url.Parts} {provider rivalProvider : Provider}
  {user project rivalUser rivalProject name ref : String} {rest : List String}
  {archive : HostedArchive}

/-! ## Repositories -/

namespace Url.Parts

/-- **Parts name a repository**: a provider by the host, user and project by the first two
segments of the path; an ending `.git` is not part of the project's name. -/
structure NamesRepository (parts : Url.Parts) (provider : Provider) (user project : String) :
    Prop where
  host : ∃ host, parts.host? = some host ∧ Provider.ofHost? host = some provider
  segments : ∃ name rest, parts.segments = user :: name :: rest ∧
    project = String.ofList (Text.withoutEnding ".git".toList name.toList)

/-- The path without its leading slash. -/
def relativePath (parts : Url.Parts) : List Char :=
  match parts.path.toList with
  | '/' :: rest => rest
  | path => path

theorem segments_eq (parts : Url.Parts) :
    parts.segments = (Text.pieces '/' parts.relativePath).map String.ofList := rfl

theorem relativePath_subset (parts : Url.Parts) : parts.relativePath ⊆ parts.path.toList := by
  unfold relativePath
  split
  · rename_i rest hpath
    rw [hpath]
    exact List.subset_cons_self _ _
  · exact List.Subset.refl _

theorem relativePath_of_slash {path : List Char} (h : parts.path.toList = '/' :: path) :
    parts.relativePath = path := by
  simp only [relativePath, h]

/-- A segment stands in the path and holds no slash. -/
theorem of_mem_segments {segment : String} (h : segment ∈ parts.segments) :
    segment.toList ⊆ parts.path.toList ∧ '/' ∉ segment.toList := by
  obtain ⟨piece, hpiece, rfl⟩ := List.mem_map.1 h
  obtain ⟨hsubset, hslash⟩ := Text.of_mem_pieces hpiece
  rw [String.toList_ofList]
  exact ⟨List.Subset.trans hsubset parts.relativePath_subset, hslash⟩

/-- The host is read of the authority alone. -/
theorem host?_congr (h : otherParts.authority = parts.authority) :
    otherParts.host? = parts.host? := by
  rw [host?, host?, h]

/-- Two segments are all of the path, with a slash between them. -/
theorem relativePath_eq (h : parts.segments = [user, name]) :
    parts.relativePath = user.toList ++ '/' :: name.toList := by
  rw [segments_eq] at h
  obtain ⟨first, more, hpieces, rfl, hmore⟩ := List.map_eq_cons_iff.1 h
  obtain ⟨second, others, rfl, rfl, hrest⟩ := List.map_eq_cons_iff.1 hmore
  rw [List.map_eq_nil_iff] at hrest
  obtain ⟨_, ⟨hnil, _⟩ | ⟨behind, hpath, hbehind⟩⟩ := Text.pieces_cases hpieces
  · cases hnil
  · obtain ⟨_, ⟨_, rfl⟩ | ⟨last, _, hlast⟩⟩ := Text.pieces_cases hbehind
    · simp only [hpath, String.toList_ofList]
    · exact absurd (hlast.trans hrest) (Text.pieces_ne_nil _ _)

end Url.Parts

/-- **Plain text**: no slash, no mark, and nothing that is dropped from texts. -/
def Url.Plain (text : String) : Prop :=
  ∀ c ∈ text.toList, isKept c = true ∧ endsAuthority c = false

theorem Url.plain_of_all {text : String}
    (h : text.toList.all (fun c => isKept c && !endsAuthority c) = true) : Url.Plain text := by
  intro c hc
  simpa using List.all_eq_true.1 h c hc

theorem Url.Plain.not_mem {text : String} (h : Url.Plain text) {mark : Char}
    (hmark : endsAuthority mark = true) : mark ∉ text.toList := by
  intro hmem
  rw [(h mark hmem).2] at hmark
  cases hmark

theorem Url.Plain.unmarked {text : String} (h : Url.Plain text) {c : Char}
    (hc : c ∈ text.toList) : c ≠ '?' ∧ c ≠ '#' := by
  constructor
  · rintro rfl
    exact h.not_mem rfl hc
  · rintro rfl
    exact h.not_mem rfl hc

theorem Url.plain_of_segment {segment : String} (hapart : parts.Apart)
    (hsegment : segment ∈ parts.segments) : Url.Plain segment := by
  intro c hc
  obtain ⟨hpath, hslash⟩ := Url.Parts.of_mem_segments hsegment
  obtain ⟨hkept, hquestion, hhash⟩ := hapart.path c (hpath hc)
  have hne : c ≠ '/' := by
    rintro rfl
    exact hslash hc
  exact ⟨hkept, by simp [endsAuthority, hne, hquestion, hhash]⟩

namespace Url.Parts.NamesRepository

theorem userProject?_eq (h : parts.NamesRepository provider user project) :
    HostedArchive.userProject? parts = some (user, project) := by
  obtain ⟨_, name, rest, hsegments, rfl⟩ := h
  simp only [HostedArchive.userProject?, hsegments]

/-- One host has one provider. -/
theorem provider_unique (h : parts.NamesRepository provider user project)
    (hrival : otherParts.NamesRepository rivalProvider rivalUser rivalProject)
    (hhost : otherParts.host? = parts.host?) : rivalProvider = provider := by
  obtain ⟨name, hname, hprovider⟩ := h.host
  obtain ⟨rivalName, hrivalName, hrivalProvider⟩ := hrival.host
  rw [hhost, hname] at hrivalName
  cases hrivalName
  exact Option.some.inj (hrivalProvider.symm.trans hprovider)

/-- Parts name one repository. -/
theorem unique (h : parts.NamesRepository provider user project)
    (hrival : parts.NamesRepository rivalProvider rivalUser rivalProject) :
    rivalProvider = provider ∧ rivalUser = user ∧ rivalProject = project := by
  have hnames := hrival.userProject?_eq.symm.trans h.userProject?_eq
  rw [Option.some.injEq, Prod.mk.injEq] at hnames
  exact ⟨h.provider_unique hrival rfl, hnames⟩

theorem plain (h : parts.NamesRepository provider user project) (hapart : parts.Apart) :
    Url.Plain user ∧ Url.Plain project := by
  obtain ⟨_, name, rest, hsegments, rfl⟩ := h
  have hmem : user ∈ parts.segments ∧ name ∈ parts.segments := by simp [hsegments]
  have hplain := Url.plain_of_segment hapart hmem.2
  refine ⟨Url.plain_of_segment hapart hmem.1, fun c hc => hplain c ?_⟩
  rw [String.toList_ofList] at hc
  exact Text.withoutEnding_subset _ _ hc

end Url.Parts.NamesRepository

/-! ## What a remote is rewritten to -/

theorem Url.Parts.fragment?_eq_some (h : parts.fragment? = some ref) : ref = parts.fragment := by
  unfold Url.Parts.fragment? at h
  split at h
  · cases h
  · exact (Option.some.inj h).symm

/-- A ref is the fragment or, at one provider, a segment of the path. -/
theorem Provider.ref?_cases (h : provider.ref? parts = some ref) :
    ref = parts.fragment ∨ (provider = .github ∧ ref ∈ parts.segments) := by
  unfold Provider.ref? at h
  dsimp only at h
  split at h
  · split at h
    · exact Or.inl (Url.Parts.fragment?_eq_some h)
    · obtain ⟨hsegment, _⟩ := Option.filter_eq_some_iff.1 h
      exact Or.inr ⟨rfl, List.mem_of_getElem? hsegment⟩
    · cases h
  all_goals
    split at h
    · cases h
    · exact Or.inl (Url.Parts.fragment?_eq_some h)

theorem HostedArchive.source?_eq_some
    (h : HostedArchive.source? parts = some (provider, user, project, ref)) :
    parts.NamesRepository provider user project ∧ provider.ref? parts = some ref := by
  unfold HostedArchive.source? at h
  split at h
  · simp only [Option.bind_eq_bind, Option.bind_eq_some_iff] at h
    obtain ⟨host, hhost, _, hprovider, _, hrepository, _, href, hsame⟩ := h
    cases hsame
    unfold HostedArchive.userProject? at hrepository
    split at hrepository
    · rename_i first name rest hsegments
      cases hrepository
      exact ⟨⟨⟨host, hhost, hprovider⟩, name, rest, hsegments, rfl⟩, href⟩
    · cases hrepository
  · cases h

theorem HostedArchive.source?_of_names (hscheme : parts.scheme ∈ HostedArchive.schemes)
    (hnames : parts.NamesRepository provider user project) (href : provider.ref? parts = some ref) :
    HostedArchive.source? parts = some (provider, user, project, ref) := by
  obtain ⟨host, hhost, hprovider⟩ := hnames.host
  rw [HostedArchive.source?, if_pos (List.contains_iff_mem.2 hscheme)]
  simp only [Option.bind_eq_bind, hhost, hprovider, hnames.userProject?_eq, href, Option.bind_some]
  rfl

theorem HostedArchive.ofUrl?_of_source? (hparts : url.parts = .ok parts)
    (hsource : HostedArchive.source? parts = some (provider, user, project, ref)) {made : Url}
    (hmade : Url.parse (provider.archiveText user project ref) = .ok made) :
    HostedArchive.ofUrl? url = .ok (some ⟨made, ref⟩) := by
  rw [HostedArchive.ofUrl?, hparts]
  simp only [bind, Except.bind, hsource, hmade]
  rfl

/-- **A URL is rewritten to an archive** of the repository that its parts name. -/
structure Rewrites (url : Url) (provider : Provider) (user project : String)
    (archive : HostedArchive) : Prop where
  archive : HostedArchive.ofUrl? url = .ok (some archive)
  repository : ∃ parts, url.parts = .ok parts ∧ parts.NamesRepository provider user project

/-- What an archive is made of. -/
theorem made_of_ofUrl (hparts : url.parts = .ok parts)
    (h : HostedArchive.ofUrl? url = .ok (some archive)) :
    ∃ provider user project, parts.NamesRepository provider user project ∧
      provider.ref? parts = some archive.ref ∧
      Url.parse (provider.archiveText user project archive.ref) = .ok archive.url := by
  rw [HostedArchive.ofUrl?, hparts] at h
  cases hsource : HostedArchive.source? parts with
  | none =>
    simp only [hsource, bind, Except.bind] at h
    cases h
  | some source =>
    obtain ⟨provider, user, project, ref⟩ := source
    simp only [hsource, bind, Except.bind] at h
    cases harchive : Url.parse (provider.archiveText user project ref) with
    | error fault =>
      rw [harchive] at h
      cases h
    | ok made =>
      rw [harchive] at h
      cases h
      obtain ⟨hrepository, href⟩ := HostedArchive.source?_eq_some hsource
      exact ⟨provider, user, project, hrepository, href, harchive⟩

theorem parts_of_ofUrl (h : HostedArchive.ofUrl? url = .ok (some archive)) :
    ∃ parts, url.parts = .ok parts := by
  cases hparts : url.parts with
  | error fault =>
    rw [HostedArchive.ofUrl?_eq_error_iff.2 hparts] at h
    cases h
  | ok parts => exact ⟨parts, rfl⟩

theorem exists_rewrites (h : HostedArchive.ofUrl? url = .ok (some archive)) :
    ∃ provider user project, Rewrites url provider user project archive := by
  obtain ⟨parts, hparts⟩ := parts_of_ofUrl h
  obtain ⟨provider, user, project, hrepository, _⟩ := made_of_ofUrl hparts h
  exact ⟨provider, user, project, h, parts, hparts, hrepository⟩

theorem isKept_of_ref? (hapart : parts.Apart) (h : provider.ref? parts = some ref) :
    ∀ c ∈ ref.toList, isKept c = true := by
  intro c hc
  rcases Provider.ref?_cases h with rfl | ⟨_, hsegment⟩
  · exact hapart.fragment c hc
  · exact (hapart.path c ((Url.Parts.of_mem_segments hsegment).1 hc)).1

/-- **Names that fit in the URL of an archive**: user and project are plain, and nothing is dropped
from the ref. -/
structure Fit (user project ref : String) : Prop where
  user : Url.Plain user
  project : Url.Plain project
  ref : ∀ c ∈ ref.toList, isKept c = true

/-- **The archive of a rewritten URL** is made of names that fit. -/
theorem Rewrites.made (h : Rewrites url provider user project archive) :
    Url.parse (provider.archiveText user project archive.ref) = .ok archive.url ∧
      Fit user project archive.ref := by
  obtain ⟨harchive, parts, hparts, hrepository⟩ := h
  have hapart := Url.apart_of_split hparts
  obtain ⟨_, _, _, hsource, href, hmade⟩ := made_of_ofUrl hparts harchive
  obtain ⟨rfl, rfl, rfl⟩ := hrepository.unique hsource
  obtain ⟨huser, hproject⟩ := hrepository.plain hapart
  exact ⟨hmade, huser, hproject, isKept_of_ref? hapart href⟩

/-! ## What is sent for an archive -/

/-- **The parts of an archive's URL** if the whole ref is part of what the server is sent. -/
def Provider.archiveParts (provider : Provider) (user project ref : String) : Url.Parts :=
  match provider with
  | .github => ⟨"https", "codeload.github.com",
      "/" ++ user ++ "/" ++ project ++ "/tar.gz/" ++ ref, "", ""⟩
  | .bitbucket => ⟨"https", "bitbucket.org",
      "/" ++ user ++ "/" ++ project ++ "/get/" ++ ref ++ ".tar.gz", "", ""⟩
  | .gitlab => ⟨"https", "gitlab.com",
      "/" ++ user ++ "/" ++ project ++ "/repository/archive.tar.gz", "ref=" ++ ref, ""⟩
  | .sourcehut => ⟨"https", "git.sr.ht",
      "/" ++ user ++ "/" ++ project ++ "/archive/" ++ ref ++ ".tar.gz", "", ""⟩

/-- A ref without marks that would end the part of the URL in which it is put. -/
def Provider.Unmarked (provider : Provider) (ref : String) : Prop :=
  '#' ∉ ref.toList ∧ (provider = .gitlab ∨ '?' ∉ ref.toList)

/-- **The whole ref is sent**: it stands where the provider looks for it, in the path or in the
query, and there is no fragment. -/
def Carries (provider : Provider) (ref : String) (sent : Url.Parts) : Prop :=
  sent.fragment = "" ∧
    match provider with
    | .github => ("/tar.gz/" ++ ref).toList <:+ sent.path.toList
    | .bitbucket => ("/get/" ++ ref ++ ".tar.gz").toList <:+ sent.path.toList
    | .gitlab => sent.query = "ref=" ++ ref
    | .sourcehut => ("/archive/" ++ ref ++ ".tar.gz").toList <:+ sent.path.toList

theorem unmarked_of_carries (hapart : sent.Apart) (h : Carries provider ref sent) :
    provider.Unmarked ref := by
  -- no path holds one of the marks, so no part of it does
  have hpath : ∀ before behind : String, (before ++ ref ++ behind).toList <:+ sent.path.toList →
      '#' ∉ ref.toList ∧ '?' ∉ ref.toList := by
    intro before behind hsuffix
    have hmem : ∀ c ∈ ref.toList, c ∈ sent.path.toList :=
      fun c hc => hsuffix.subset (by simp [hc])
    exact ⟨fun hhash => (hapart.path _ (hmem _ hhash)).2.2 rfl,
      fun hquestion => (hapart.path _ (hmem _ hquestion)).2.1 rfl⟩
  obtain ⟨_, hwhere⟩ := h
  cases provider with
  | github =>
    have hplace := hpath "/tar.gz/" "" (by rwa [String.append_empty])
    exact ⟨hplace.1, Or.inr hplace.2⟩
  | bitbucket =>
    have hplace := hpath "/get/" ".tar.gz" hwhere
    exact ⟨hplace.1, Or.inr hplace.2⟩
  | gitlab =>
    refine ⟨fun hhash => ?_, Or.inl rfl⟩
    have hquery : '#' ∈ sent.query.toList := by
      rw [hwhere, String.toList_append]
      exact List.mem_append_right _ hhash
    exact (hapart.query _ hquery).2 rfl
  | sourcehut =>
    have hplace := hpath "/archive/" ".tar.gz" hwhere
    exact ⟨hplace.1, Or.inr hplace.2⟩

theorem carries_archiveParts (provider : Provider) (user project ref : String) :
    Carries provider ref (provider.archiveParts user project ref) := by
  have hsuffix : ∀ before behind : String, behind.toList <:+ (before ++ behind).toList := by
    intro before behind
    rw [String.toList_append]
    exact List.suffix_append _ _
  cases provider with
  | github =>
    refine ⟨rfl, ?_⟩
    have hpath := hsuffix ("/" ++ user ++ "/" ++ project) ("/tar.gz/" ++ ref)
    rwa [← String.append_assoc] at hpath
  | bitbucket =>
    refine ⟨rfl, ?_⟩
    have hpath := hsuffix ("/" ++ user ++ "/" ++ project) ("/get/" ++ ref ++ ".tar.gz")
    rwa [← String.append_assoc, ← String.append_assoc] at hpath
  | gitlab => exact ⟨rfl, rfl⟩
  | sourcehut =>
    refine ⟨rfl, ?_⟩
    have hpath := hsuffix ("/" ++ user ++ "/" ++ project) ("/archive/" ++ ref ++ ".tar.gz")
    rwa [← String.append_assoc, ← String.append_assoc] at hpath

/-! ## What is read back -/

namespace Provider

theorem ends_archiveHost (provider : Provider) :
    ∀ c ∈ provider.archiveHost.toList, endsAuthority c = false :=
  fun c hc => (provider.accepted_archiveHost.1 c hc).1

theorem filter_behindHost (provider : Provider) (h : Fit user project ref) :
    (provider.behindHost user project ref).filter isKept =
      provider.behindHost user project ref := by
  have hbefore : provider.beforeRef.toList.all isKept = true := by cases provider <;> decide
  have hbehind : provider.behindRef.toList.all isKept = true := by cases provider <;> decide
  refine List.filter_eq_self.2 fun c hc => ?_
  simp only [behindHost, List.mem_cons, List.mem_append] at hc
  rcases hc with rfl | hc | rfl | hc | hc | hc | hc
  · rfl
  · exact (h.user c hc).1
  · rfl
  · exact (h.project c hc).1
  · exact List.all_eq_true.1 hbefore c hc
  · exact h.ref c hc
  · exact List.all_eq_true.1 hbehind c hc

/-- **The parts of an archive's URL**, whatever the ref. -/
def sentParts (provider : Provider) (user project ref : String) : Url.Parts :=
  Url.partsBehind "https".toList
    ('/' :: '/' :: (provider.archiveHost.toList ++ provider.behindHost user project ref))

/-- Nothing is dropped from the text of an archive. -/
theorem split_of_fit (provider : Provider) (h : Fit user project ref) :
    Url.split (provider.archiveText user project ref) =
      .ok (provider.sentParts user project ref) := by
  rw [split_archiveText, provider.filter_behindHost h, sentParts]

theorem begins_behindHost (provider : Provider) (user project ref : String) :
    Begins Url.enders (provider.behindHost user project ref) := by
  intro c hc
  cases hc
  decide

/-- A mark that the ref does not hold ends no part of the path before and behind it. -/
theorem not_mem_behindHost {mark : Char} (hmark : endsAuthority mark = true) (hne : mark ≠ '/')
    (h : Fit user project ref) (href : mark ∉ ref.toList)
    (hbefore : mark ∉ provider.beforeRef.toList) :
    mark ∉ provider.behindHost user project ref := by
  have hbehind : mark ∉ provider.behindRef.toList := by
    have hall : provider.behindRef.toList.all (!endsAuthority ·) = true := by
      cases provider <;> decide
    intro hmem
    simpa [hmark] using List.all_eq_true.1 hall mark hmem
  simp only [behindHost, List.mem_cons, List.mem_append, hne, h.user.not_mem hmark,
    h.project.not_mem hmark, href, hbefore, hbehind, or_self, not_false_eq_true]

theorem ofList_behindHost (provider : Provider) (user project ref : String) :
    String.ofList (provider.behindHost user project ref) =
      "/" ++ user ++ "/" ++ project ++ provider.beforeRef ++ ref ++ provider.behindRef := by
  apply String.toList_inj.1
  simp only [behindHost, String.toList_ofList, String.toList_append, List.append_assoc]
  rfl

theorem behindHost_gitlab (user project ref : String) : gitlab.behindHost user project ref =
    ("/" ++ user ++ "/" ++ project ++ "/repository/archive.tar.gz").toList ++
      '?' :: ("ref=" ++ ref).toList := by
  have hbefore : gitlab.beforeRef.toList =
      "/repository/archive.tar.gz".toList ++ '?' :: "ref=".toList := by decide
  have hbehind : gitlab.behindRef.toList = [] := rfl
  simp only [behindHost, hbefore, hbehind, String.toList_append, List.append_assoc,
    List.cons_append, List.append_nil]
  rfl

/-- **An unmarked ref is sent whole.** -/
theorem split_of_unmarked (h : Fit user project ref) (href : provider.Unmarked ref) :
    Url.split (provider.archiveText user project ref) =
      .ok (provider.archiveParts user project ref) := by
  have hhost := provider.ends_archiveHost
  have hbegins := provider.begins_behindHost user project ref
  have hhash : '#' ∉ provider.behindHost user project ref := by
    refine not_mem_behindHost rfl (by decide) h href.1 ?_
    cases provider <;> decide
  rw [provider.split_of_fit h, sentParts]
  apply congrArg Except.ok
  by_cases hgitlab : provider = .gitlab
  · -- the question mark in front of the ref is the first one
    subst hgitlab
    rw [behindHost_gitlab] at hbegins hhash ⊢
    have huser : '?' ∉ user.toList := h.user.not_mem rfl
    have hproject : '?' ∉ project.toList := h.project.not_mem rfl
    have hquestion :
        '?' ∉ ("/" ++ user ++ "/" ++ project ++ "/repository/archive.tar.gz").toList := by
      simp only [String.toList_append, List.mem_append, huser, hproject, or_false]
      decide
    rw [Url.partsBehind_query _ hhost hbegins hhash hquestion]
    simp only [String.ofList_toList]
    rfl
  · -- there is no question mark
    have hquestion : '?' ∉ provider.behindHost user project ref := by
      refine not_mem_behindHost rfl (by decide) h (href.2.resolve_left hgitlab) ?_
      cases provider with
      | github => decide
      | bitbucket => decide
      | gitlab => exact absurd rfl hgitlab
      | sourcehut => decide
    rw [Url.partsBehind_path _ hhost hbegins hhash hquestion, ofList_behindHost]
    simp only [String.ofList_toList]
    cases provider with
    | github =>
      rw [show github.behindRef = "" from rfl, String.append_empty]
      rfl
    | bitbucket => rfl
    | gitlab => exact absurd rfl hgitlab
    | sourcehut => rfl

/-- What stands in front of the ref in the path of an archive. -/
def place (provider : Provider) : List Char := Url.pathOf provider.beforeRef.toList

/-- Behind the host, the parts of an archive are joined to what its text holds there. -/
theorem behindHost_archiveParts (provider : Provider) (user project ref : String) :
    (provider.archiveParts user project ref).path.toList ++
        (Url.marked '?' (provider.archiveParts user project ref).query ++
          Url.marked '#' (provider.archiveParts user project ref).fragment) =
      provider.behindHost user project ref := by
  cases provider <;>
    simp only [archiveParts, behindHost, beforeRef, behindRef, Url.marked, String.toList_append] <;>
    simp

/-- **The URL text of an archive** is its parts joined. -/
theorem join_archiveParts (provider : Provider) (user project ref : String) :
    (provider.archiveParts user project ref).join = provider.archiveText user project ref := by
  have hscheme : (provider.archiveParts user project ref).scheme = "https" := by
    cases provider <;> rfl
  have hhost : (provider.archiveParts user project ref).authority = provider.archiveHost := by
    cases provider <;> rfl
  have hnamed : (provider.archiveParts user project ref).authority ≠ "" := by
    rw [hhost]
    cases provider <;> decide
  have hpath : Begins ['/'] (provider.archiveParts user project ref).path.toList := by
    intro c hc
    cases provider <;> simpa [archiveParts, eq_comm] using hc
  apply String.toList_inj.1
  rw [Url.toList_join (by rw [hscheme]; decide), Url.behindScheme_of_named hnamed hpath,
    behindHost_archiveParts, hscheme, hhost, toList_archiveText]

/-- The URL of an archive is read as it is written if its ref is unmarked. -/
theorem parse_archiveText (h : Fit user project ref) (href : provider.Unmarked ref) :
    Url.parse (provider.archiveText user project ref) =
      .ok ⟨provider.archiveText user project ref⟩ := by
  rw [Url.parse_of_split (split_of_unmarked h href), join_archiveParts]

/-- User, project and place stand in front of the path, whatever is behind them. -/
theorem pathOf_behindHost (provider : Provider) (h : Fit user project ref) :
    ∃ more, Url.pathOf (provider.behindHost user project ref) =
      '/' :: (user.toList ++ '/' :: (project.toList ++ (provider.place ++ more))) := by
  obtain ⟨behind, hbehind, _⟩ := Url.exists_append_pathOf provider.beforeRef.toList
  have hplace : provider.place.all (fun c => c != '?' && c != '#') = true := by
    cases provider <;> decide
  have hfront : ∀ c ∈ '/' :: (user.toList ++ '/' :: (project.toList ++ provider.place)),
      c ≠ '?' ∧ c ≠ '#' := by
    intro c hc
    simp only [List.mem_cons, List.mem_append] at hc
    rcases hc with rfl | hc | rfl | hc | hc
    · decide
    · exact h.user.unmarked hc
    · decide
    · exact h.project.unmarked hc
    · simpa using List.all_eq_true.1 hplace c hc
  have hwhole : provider.behindHost user project ref =
      ('/' :: (user.toList ++ '/' :: (project.toList ++ provider.place))) ++
        (behind ++ (ref.toList ++ provider.behindRef.toList)) := by
    rw [behindHost, hbehind, place]
    simp
  refine ⟨Url.pathOf (behind ++ (ref.toList ++ provider.behindRef.toList)), ?_⟩
  rw [hwhole, Url.pathOf_append hfront]
  simp

theorem takeAuthority_sentParts (provider : Provider) (user project ref : String) :
    Url.takeAuthority
        ('/' :: '/' :: (provider.archiveHost.toList ++ provider.behindHost user project ref)) =
      (provider.archiveHost.toList, provider.behindHost user project ref) :=
  Url.takeAuthority_spelled provider.ends_archiveHost (provider.begins_behindHost user project ref)

theorem sentParts_authority (provider : Provider) (user project ref : String) :
    (provider.sentParts user project ref).authority = provider.archiveHost := by
  simp only [sentParts, Url.partsBehind, takeAuthority_sentParts, String.ofList_toList]

theorem sentParts_path (provider : Provider) (h : Fit user project ref) :
    ∃ more, (provider.sentParts user project ref).path.toList =
      '/' :: (user.toList ++ '/' :: (project.toList ++ (provider.place ++ more))) := by
  rw [sentParts, Url.path_partsBehind, takeAuthority_sentParts]
  exact provider.pathOf_behindHost h

end Provider

/-- **The URL of an archive is read back whole** if its ref is unmarked. -/
theorem Rewrites.whole (h : Rewrites url provider user project archive)
    (href : provider.Unmarked archive.ref) :
    archive.url.parts = .ok (provider.archiveParts user project archive.ref) := by
  obtain ⟨hmade, hfit⟩ := h.made
  have hnamed : (provider.archiveParts user project archive.ref).authority ≠ "" := by
    cases provider <;> simp [Provider.archiveParts]
  obtain ⟨read, hread, hparts⟩ :=
    Url.parts_of_read (Provider.split_of_unmarked hfit href) hnamed
  cases hread.symm.trans hmade
  exact hparts

/-- **The URL of an archive is split**, whatever the ref. -/
theorem Rewrites.parts_url (h : Rewrites url provider user project archive) :
    archive.url.parts = .ok (provider.sentParts user project archive.ref) := by
  obtain ⟨hmade, hfit⟩ := h.made
  have hnamed : (provider.sentParts user project archive.ref).authority ≠ "" := by
    rw [provider.sentParts_authority]
    cases provider <;> decide
  obtain ⟨read, hread, hparts⟩ := Url.parts_of_read (provider.split_of_fit hfit) hnamed
  cases hread.symm.trans hmade
  exact hparts

/-- **What is sent for an archive**, whatever the ref: user and project stand in front of the
path at the provider's host. -/
theorem Rewrites.exists_sent (h : Rewrites url provider user project archive) :
    ∃ sent more, archive.url.parts = .ok sent ∧ sent.Apart ∧
      sent.authority = provider.archiveHost ∧
      sent.path.toList = '/' :: (user.toList ++ '/' :: (project.toList ++ '/' :: more)) := by
  have hslash : ∃ behind, provider.place = '/' :: behind := by
    cases provider <;> exact ⟨_, rfl⟩
  obtain ⟨behind, hbehind⟩ := hslash
  obtain ⟨more, hmore⟩ := provider.sentParts_path h.made.2
  rw [hbehind, List.cons_append] at hmore
  exact ⟨_, _, h.parts_url, Url.apart_of_split h.parts_url,
    provider.sentParts_authority _ _ _, hmore⟩

end LockPrefetch
