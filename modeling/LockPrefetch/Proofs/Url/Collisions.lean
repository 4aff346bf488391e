import LockPrefetch.Proofs.Url.Archives

/-! # Archives that are shared

An archive is downloaded by its URL and stored under the key that is made of it, so two remotes
with one URL share what is downloaded. Refs of one repository do so only if one of them has a mark
(`Rewrites.apart`): `a?` is downloaded as `a`. Repositories at one provider do so if the first two
segments of their paths are alike (`Rewrites.repository_unique`): `g/sub/a` and `g/sub/b` are both
downloaded as `g/sub`. -/

set_option autoImplicit false

namespace LockPrefetch

variable {url other : Url} {parts otherParts : Url.Parts} {provider rivalProvider : Provider}
  {user project rivalUser rivalProject ref rivalRef : String} {archive rival : HostedArchive}

theorem PlannedFetch.keyFor_inj {text otherText : String} :
    keyFor text = keyFor otherText ↔ text = otherText :=
  String.append_right_inj _

theorem Url.text_inj : other.text = url.text ↔ other = url :=
  ⟨fun h => by cases url; cases other; cases h; rfl, congrArg Url.text⟩

/-! ## Refs of one repository -/

/-- What a server is sent of the parts of a URL. -/
def Url.Parts.request (parts : Url.Parts) : Url.Parts := { parts with fragment := "" }

theorem Provider.request_archiveParts (provider : Provider) (user project ref : String) :
    (provider.archiveParts user project ref).request = provider.archiveParts user project ref := by
  cases provider <;> rfl

theorem Provider.eq_of_archiveParts
    (h : provider.archiveParts user project ref = provider.archiveParts user project rivalRef) :
    ref = rivalRef := by
  cases provider with
  | github =>
    have hpath := congrArg Url.Parts.path h
    exact (String.append_right_inj _).1 hpath
  | bitbucket =>
    have hpath := congrArg Url.Parts.path h
    exact (String.append_right_inj _).1 ((String.append_left_inj _).1 hpath)
  | gitlab =>
    have hquery := congrArg Url.Parts.query h
    exact (String.append_right_inj _).1 hquery
  | sourcehut =>
    have hpath := congrArg Url.Parts.path h
    exact (String.append_right_inj _).1 ((String.append_left_inj _).1 hpath)

/-- **Unmarked refs of one repository** are requested and stored apart. -/
theorem Rewrites.apart (h : Rewrites url provider user project archive)
    (hrival : Rewrites other provider user project rival) (href : provider.Unmarked archive.ref)
    (hrivalRef : provider.Unmarked rival.ref) (hne : rival.ref ≠ archive.ref) :
    ∃ sent rivalSent, archive.url.parts = .ok sent ∧ rival.url.parts = .ok rivalSent ∧
      rivalSent.request ≠ sent.request ∧
      PlannedFetch.keyFor rival.url.text ≠ PlannedFetch.keyFor archive.url.text := by
  have hsent := h.whole href
  have hrivalSent := hrival.whole hrivalRef
  refine ⟨_, _, hsent, hrivalSent, fun hrequest => hne ?_, fun hkey => hne ?_⟩
  · rw [Provider.request_archiveParts, Provider.request_archiveParts] at hrequest
    exact Provider.eq_of_archiveParts hrequest
  · rw [Url.parts, PlannedFetch.keyFor_inj.1 hkey, ← Url.parts, hsent] at hrivalSent
    exact (Provider.eq_of_archiveParts (Except.ok.inj hrivalSent)).symm

/-- **The whole ref of an archive is sent** exactly if it is unmarked, and then an archive of the
same repository for another such ref is requested and stored apart. -/
theorem HostedArchive.carries_iff (h : HostedArchive.ofUrl? url = .ok (some archive)) :
    ∃ provider user project sent, Rewrites url provider user project archive ∧
      archive.url.parts = .ok sent ∧
      (Carries provider archive.ref sent ↔ provider.Unmarked archive.ref) ∧
      ∀ other rival rivalSent, Rewrites other provider user project rival →
        rival.url.parts = .ok rivalSent → provider.Unmarked archive.ref →
        provider.Unmarked rival.ref → rival.ref ≠ archive.ref →
        rivalSent.request ≠ sent.request ∧
          PlannedFetch.keyFor rival.url.text ≠ PlannedFetch.keyFor archive.url.text := by
  obtain ⟨provider, user, project, hrewrites⟩ := exists_rewrites h
  obtain ⟨sent, _, hsent, hapart, _⟩ := hrewrites.exists_sent
  refine ⟨provider, user, project, sent, hrewrites, hsent,
    ⟨unmarked_of_carries hapart, fun href => ?_⟩, ?_⟩
  · cases hsent.symm.trans (hrewrites.whole href)
    exact carries_archiveParts provider user project archive.ref
  · intro other rival rivalSent hrival hrivalSent href hrivalRef hne
    obtain ⟨_, _, hsame, hrivalSame, hdiffer⟩ := hrewrites.apart hrival href hrivalRef hne
    cases hsent.symm.trans hsame
    cases hrivalSent.symm.trans hrivalSame
    exact hdiffer

/-- A branch whose name has a slash is sent whole. -/
theorem HostedArchive.carries_branch :
    HostedArchive.ofUrl? ⟨"https://github.com/foo/bar#fix/bug"⟩ =
        .ok (some ⟨⟨"https://codeload.github.com/foo/bar/tar.gz/fix/bug"⟩, "fix/bug"⟩) ∧
      ∃ provider user project sent,
        Rewrites ⟨"https://github.com/foo/bar#fix/bug"⟩ provider user project
          ⟨⟨"https://codeload.github.com/foo/bar/tar.gz/fix/bug"⟩, "fix/bug"⟩ ∧
        Url.parts ⟨"https://codeload.github.com/foo/bar/tar.gz/fix/bug"⟩ = .ok sent ∧
        Carries provider "fix/bug" sent := by
  have harchive : HostedArchive.ofUrl? ⟨"https://github.com/foo/bar#fix/bug"⟩ =
      .ok (some ⟨⟨"https://codeload.github.com/foo/bar/tar.gz/fix/bug"⟩, "fix/bug"⟩) := by
    decide +kernel
  obtain ⟨provider, user, project, sent, hrewrites, hsent, hcarries, _⟩ :=
    HostedArchive.carries_iff harchive
  have hmarks : '#' ∉ "fix/bug".toList ∧ '?' ∉ "fix/bug".toList := by decide
  exact ⟨harchive, provider, user, project, sent, hrewrites, hsent,
    hcarries.2 ⟨hmarks.1, Or.inr hmarks.2⟩⟩

/-- **Not every ref is sent whole, and some are mixed up**: of `a#b` only `a` is sent, and for the
refs `a` and `a?` of one repository the same archive is requested. -/
theorem HostedArchive.cut_off_refs :
    (HostedArchive.ofUrl? ⟨"https://github.com/foo/bar#a#b"⟩ =
        .ok (some ⟨⟨"https://codeload.github.com/foo/bar/tar.gz/a#b"⟩, "a#b"⟩) ∧
      Url.parts ⟨"https://codeload.github.com/foo/bar/tar.gz/a#b"⟩ =
        .ok ⟨"https", "codeload.github.com", "/foo/bar/tar.gz/a", "", "b"⟩) ∧
    (HostedArchive.ofUrl? ⟨"https://github.com/foo/bar#a"⟩ =
        .ok (some ⟨⟨"https://codeload.github.com/foo/bar/tar.gz/a"⟩, "a"⟩) ∧
      HostedArchive.ofUrl? ⟨"https://github.com/foo/bar#a?"⟩ =
        .ok (some ⟨⟨"https://codeload.github.com/foo/bar/tar.gz/a"⟩, "a?"⟩)) ∧
    ¬ (∀ (url : Url) (archive : HostedArchive) (sent : Url.Parts),
      HostedArchive.ofUrl? url = .ok (some archive) → archive.url.parts = .ok sent →
      ∃ provider user project, Rewrites url provider user project archive ∧
        Carries provider archive.ref sent) ∧
    ¬ (∀ (url other : Url) (provider : Provider) (user project : String)
      (archive rival : HostedArchive), Rewrites url provider user project archive →
      Rewrites other provider user project rival → rival.ref ≠ archive.ref →
      PlannedFetch.keyFor rival.url.text ≠ PlannedFetch.keyFor archive.url.text) := by
  have hhash : HostedArchive.ofUrl? ⟨"https://github.com/foo/bar#a#b"⟩ =
      .ok (some ⟨⟨"https://codeload.github.com/foo/bar/tar.gz/a#b"⟩, "a#b"⟩) := by decide +kernel
  have hsent : Url.parts ⟨"https://codeload.github.com/foo/bar/tar.gz/a#b"⟩ =
      .ok ⟨"https", "codeload.github.com", "/foo/bar/tar.gz/a", "", "b"⟩ := by decide +kernel
  have hplain : HostedArchive.ofUrl? ⟨"https://github.com/foo/bar#a"⟩ =
      .ok (some ⟨⟨"https://codeload.github.com/foo/bar/tar.gz/a"⟩, "a"⟩) := by decide +kernel
  have hquestion : HostedArchive.ofUrl? ⟨"https://github.com/foo/bar#a?"⟩ =
      .ok (some ⟨⟨"https://codeload.github.com/foo/bar/tar.gz/a"⟩, "a?"⟩) := by decide +kernel
  refine ⟨⟨hhash, hsent⟩, ⟨hplain, hquestion⟩, fun hwhole => ?_, fun hstored => ?_⟩
  · obtain ⟨provider, _, _, _, hfragment, _⟩ := hwhole _ _ _ hhash hsent
    exact absurd hfragment (by decide)
  · have hparts : Url.parts ⟨"https://github.com/foo/bar#a"⟩ =
        .ok ⟨"https", "github.com", "/foo/bar", "", "a"⟩ := by decide +kernel
    have hotherParts : Url.parts ⟨"https://github.com/foo/bar#a?"⟩ =
        .ok ⟨"https", "github.com", "/foo/bar", "", "a?"⟩ := by decide +kernel
    have hnames : ∀ ref ∈ ["a", "a?"], Url.Parts.NamesRepository
        ⟨"https", "github.com", "/foo/bar", "", ref⟩ .github "foo" "bar" := by
      have hsource : ∀ ref ∈ ["a", "a?"], HostedArchive.source?
          ⟨"https", "github.com", "/foo/bar", "", ref⟩ = some (.github, "foo", "bar", ref) := by
        decide +kernel
      exact fun ref href => (HostedArchive.source?_eq_some (hsource ref href)).1
    exact hstored _ _ .github "foo" "bar" _ _ ⟨hplain, _, hparts, hnames "a" (by decide)⟩
      ⟨hquestion, _, hotherParts, hnames "a?" (by decide)⟩ (by decide) rfl

/-! ## Repositories of one provider -/

theorem Provider.archiveHost_injective {provider rivalProvider : Provider}
    (h : rivalProvider.archiveHost = provider.archiveHost) : rivalProvider = provider := by
  revert h
  cases provider <;> cases rivalProvider <;> decide

/-- **An archive belongs to one repository**, as far as its names are looked at. -/
theorem Rewrites.repository_unique (h : Rewrites url provider user project archive)
    (hrival : Rewrites other rivalProvider rivalUser rivalProject rival)
    (hsame : rival.url = archive.url) :
    rivalProvider = provider ∧ rivalUser = user ∧ rivalProject = project := by
  obtain ⟨sent, more, hsent, _, hhost, hpath⟩ := h.exists_sent
  obtain ⟨rivalSent, rivalMore, hrivalSent, _, hrivalHost, hrivalPath⟩ := hrival.exists_sent
  rw [hsame] at hrivalSent
  cases hsent.symm.trans hrivalSent
  have hfit := h.made.2
  have hrivalFit := hrival.made.2
  -- the path is cut at its slashes, which no name holds
  have hnames := (List.cons.inj (hrivalPath.symm.trans hpath)).2
  obtain ⟨huser, hbehind⟩ :=
    Text.eq_of_append_eq (hfit.user.not_mem rfl) (hrivalFit.user.not_mem rfl) hnames
  obtain ⟨hproject, _⟩ :=
    Text.eq_of_append_eq (hfit.project.not_mem rfl) (hrivalFit.project.not_mem rfl) hbehind
  exact ⟨Provider.archiveHost_injective (hrivalHost.symm.trans hhost),
    String.toList_inj.1 huser, String.toList_inj.1 hproject⟩

/-- Only one provider finds refs elsewhere than in the fragment. -/
theorem Provider.ref_eq_fragment (helsewhere : provider ≠ .github)
    (h : provider.ref? parts = some ref) : ref = parts.fragment :=
  (Provider.ref?_cases h).resolve_right fun hgithub => helsewhere hgithub.1

/-- The path that names a repository: without its leading slash and without an ending `.git`. -/
def Url.Parts.repositoryPath (parts : Url.Parts) : List Char :=
  Text.withoutEnding ".git".toList parts.relativePath

namespace Url.Parts.NamesRepository

theorem ne_github (h : parts.NamesRepository provider user project)
    (helsewhere : parts.host? ≠ some "github.com") : provider ≠ .github := by
  rintro rfl
  obtain ⟨host, hhost, hprovider⟩ := h.host
  unfold Provider.ofHost? at hprovider
  split at hprovider
  · exact helsewhere hhost
  all_goals cases hprovider

/-- Where there are two segments, they are all that names the repository. -/
theorem repositoryPath_eq (h : parts.NamesRepository provider user project)
    (htwo : parts.segments.length = 2) :
    parts.repositoryPath = user.toList ++ '/' :: project.toList := by
  obtain ⟨_, name, rest, hsegments, rfl⟩ := h
  have hrest : rest = [] := by
    rw [hsegments] at htwo
    simpa using htwo
  rw [hrest] at hsegments
  rw [Url.Parts.repositoryPath, Url.Parts.relativePath_eq hsegments,
    Text.withoutEnding_append (by decide)]
  simp only [String.toList_ofList]

/-- Paths of two segments name the same repository exactly if user and project are the same. -/
theorem repositoryPath_eq_iff (h : parts.NamesRepository provider user project)
    (hrival : otherParts.NamesRepository rivalProvider rivalUser rivalProject)
    (hapart : parts.Apart) (hrivalApart : otherParts.Apart)
    (htwo : parts.segments.length = 2) (hrivalTwo : otherParts.segments.length = 2) :
    otherParts.repositoryPath = parts.repositoryPath ↔
      rivalUser = user ∧ rivalProject = project := by
  rw [h.repositoryPath_eq htwo, hrival.repositoryPath_eq hrivalTwo]
  constructor
  · intro hsame
    obtain ⟨huser, hproject⟩ := Text.eq_of_append_eq ((h.plain hapart).1.not_mem rfl)
      ((hrival.plain hrivalApart).1.not_mem rfl) hsame
    exact ⟨String.toList_inj.1 huser, String.toList_inj.1 hproject⟩
  · rintro ⟨rfl, rfl⟩
    rfl

end Url.Parts.NamesRepository

/-- **Archives of one ref at one provider** have the same URL exactly if user and project are the
same. -/
theorem Rewrites.same_url_iff (h : Rewrites url provider user project archive)
    (hrival : Rewrites other provider rivalUser rivalProject rival)
    (href : rival.ref = archive.ref) :
    rival.url = archive.url ↔ rivalUser = user ∧ rivalProject = project := by
  constructor
  · intro hsame
    exact (h.repository_unique hrival hsame).2
  · rintro ⟨rfl, rfl⟩
    -- both URLs are read from the same text
    have hrivalMade := hrival.made.1
    rw [href, h.made.1] at hrivalMade
    exact (Except.ok.inj hrivalMade).symm

/-- **Remotes at one provider are told apart by the first two segments** of their paths, without
the ending `.git` of the second one, if they name the same ref; of repositories in subgroups no
more is looked at. -/
theorem HostedArchive.url_eq_iff (hparts : url.parts = .ok parts)
    (hotherParts : other.parts = .ok otherParts) (hhost : otherParts.host? = parts.host?)
    (helsewhere : parts.host? ≠ some "github.com")
    (hfragment : otherParts.fragment = parts.fragment)
    (harchive : HostedArchive.ofUrl? url = .ok (some archive))
    (hrival : HostedArchive.ofUrl? other = .ok (some rival)) :
    (rival.url = archive.url ↔
        HostedArchive.userProject? otherParts = HostedArchive.userProject? parts) ∧
      (PlannedFetch.keyFor rival.url.text = PlannedFetch.keyFor archive.url.text ↔
        HostedArchive.userProject? otherParts = HostedArchive.userProject? parts) ∧
      (parts.segments.length = 2 → otherParts.segments.length = 2 →
        (rival.url = archive.url ↔ otherParts.repositoryPath = parts.repositoryPath)) := by
  obtain ⟨provider, user, project, hrepository, href, _⟩ := made_of_ofUrl hparts harchive
  obtain ⟨rivalProvider, rivalUser, rivalProject, hrivalRepository, hrivalRef, _⟩ :=
    made_of_ofUrl hotherParts hrival
  obtain rfl := hrepository.provider_unique hrivalRepository hhost
  -- away from github.com the ref is the fragment, which is the same
  have hgithub := hrepository.ne_github helsewhere
  have hsameRef : rival.ref = archive.ref := by
    rw [Provider.ref_eq_fragment hgithub href, Provider.ref_eq_fragment hgithub hrivalRef,
      hfragment]
  have hnames := Rewrites.same_url_iff ⟨harchive, parts, hparts, hrepository⟩
    ⟨hrival, otherParts, hotherParts, hrivalRepository⟩ hsameRef
  have hfirst : rival.url = archive.url ↔
      HostedArchive.userProject? otherParts = HostedArchive.userProject? parts := by
    rw [hnames, hrepository.userProject?_eq, hrivalRepository.userProject?_eq, Option.some.injEq,
      Prod.mk.injEq]
  refine ⟨hfirst, ?_, fun htwo hrivalTwo => ?_⟩
  · rw [PlannedFetch.keyFor_inj, ← hfirst, Url.text_inj]
  · rw [hnames, hrepository.repositoryPath_eq_iff hrivalRepository (Url.apart_of_split hparts)
      (Url.apart_of_split hotherParts) htwo hrivalTwo]

/-- Two projects of one user are told apart, with and without an ending `.git`. -/
theorem HostedArchive.url_eq_iff_two_projects :
    ∃ archive rival, HostedArchive.ofUrl? ⟨"https://gitlab.com/g/a.git#r"⟩ = .ok (some archive) ∧
      HostedArchive.ofUrl? ⟨"https://gitlab.com/g/b#r"⟩ = .ok (some rival) ∧
      rival.url ≠ archive.url ∧
      PlannedFetch.keyFor rival.url.text ≠ PlannedFetch.keyFor archive.url.text := by
  have hparts : Url.parts ⟨"https://gitlab.com/g/a.git#r"⟩ =
      .ok ⟨"https", "gitlab.com", "/g/a.git", "", "r"⟩ := by decide +kernel
  have hotherParts : Url.parts ⟨"https://gitlab.com/g/b#r"⟩ =
      .ok ⟨"https", "gitlab.com", "/g/b", "", "r"⟩ := by decide +kernel
  have harchive : HostedArchive.ofUrl? ⟨"https://gitlab.com/g/a.git#r"⟩ = .ok (some
      ⟨⟨"https://gitlab.com/g/a/repository/archive.tar.gz?ref=r"⟩, "r"⟩) := by decide +kernel
  have hrival : HostedArchive.ofUrl? ⟨"https://gitlab.com/g/b#r"⟩ = .ok (some
      ⟨⟨"https://gitlab.com/g/b/repository/archive.tar.gz?ref=r"⟩, "r"⟩) := by decide +kernel
  have hnames : HostedArchive.userProject? ⟨"https", "gitlab.com", "/g/b", "", "r"⟩ ≠
      HostedArchive.userProject? ⟨"https", "gitlab.com", "/g/a.git", "", "r"⟩ := by decide +kernel
  obtain ⟨hurl, hkey, _⟩ := HostedArchive.url_eq_iff hparts hotherParts (by decide +kernel)
    (by decide +kernel) rfl harchive hrival
  exact ⟨_, _, harchive, hrival, fun hsame => hnames (hurl.1 hsame),
    fun hsame => hnames (hkey.1 hsame)⟩

/-- **Repositories of one subgroup are mixed up**: `g/sub/a` and `g/sub/b` share an archive, which
is that of `g/sub`. -/
theorem HostedArchive.shared_subgroup :
    (Url.parts ⟨"https://gitlab.com/g/sub/a#r"⟩ =
        .ok ⟨"https", "gitlab.com", "/g/sub/a", "", "r"⟩ ∧
      HostedArchive.ofUrl? ⟨"https://gitlab.com/g/sub/a#r"⟩ =
        .ok (some ⟨⟨"https://gitlab.com/g/sub/repository/archive.tar.gz?ref=r"⟩, "r"⟩)) ∧
    (Url.parts ⟨"https://gitlab.com/g/sub/b#r"⟩ =
        .ok ⟨"https", "gitlab.com", "/g/sub/b", "", "r"⟩ ∧
      HostedArchive.ofUrl? ⟨"https://gitlab.com/g/sub/b#r"⟩ =
        .ok (some ⟨⟨"https://gitlab.com/g/sub/repository/archive.tar.gz?ref=r"⟩, "r"⟩)) ∧
    ¬ (∀ (url other : Url) (parts otherParts : Url.Parts) (archive rival : HostedArchive),
      url.parts = .ok parts → other.parts = .ok otherParts → otherParts.host? = parts.host? →
      parts.host? = some "gitlab.com" ∨ parts.host? = some "bitbucket.org" ∨
        parts.host? = some "git.sr.ht" →
      parts.query = "" → otherParts.query = "" → otherParts.fragment = parts.fragment →
      (∀ segment ∈ parts.segments ++ otherParts.segments, segment ≠ "") →
      otherParts.repositoryPath ≠ parts.repositoryPath →
      HostedArchive.ofUrl? url = .ok (some archive) →
      HostedArchive.ofUrl? other = .ok (some rival) →
      rival.url ≠ archive.url ∧
        PlannedFetch.keyFor rival.url.text ≠ PlannedFetch.keyFor archive.url.text) := by
  have hparts : Url.parts ⟨"https://gitlab.com/g/sub/a#r"⟩ =
      .ok ⟨"https", "gitlab.com", "/g/sub/a", "", "r"⟩ := by decide +kernel
  have harchive : HostedArchive.ofUrl? ⟨"https://gitlab.com/g/sub/a#r"⟩ = .ok (some
      ⟨⟨"https://gitlab.com/g/sub/repository/archive.tar.gz?ref=r"⟩, "r"⟩) := by decide +kernel
  have hotherParts : Url.parts ⟨"https://gitlab.com/g/sub/b#r"⟩ =
      .ok ⟨"https", "gitlab.com", "/g/sub/b", "", "r"⟩ := by decide +kernel
  have hrival : HostedArchive.ofUrl? ⟨"https://gitlab.com/g/sub/b#r"⟩ = .ok (some
      ⟨⟨"https://gitlab.com/g/sub/repository/archive.tar.gz?ref=r"⟩, "r"⟩) := by decide +kernel
  refine ⟨⟨hparts, harchive⟩, ⟨hotherParts, hrival⟩, fun hclaim => ?_⟩
  exact (hclaim _ _ _ _ _ _ hparts hotherParts (by decide +kernel) (Or.inl (by decide +kernel))
    rfl rfl rfl (by decide +kernel) (by decide +kernel) harchive hrival).1 rfl

end LockPrefetch
