import LockPrefetch.Proofs.Url.Archives
import LockPrefetch.Proofs.Url.Shorthands
import Mathlib.Data.List.Infix

/-! # From shorthands to archives

A shorthand, the remote that it means and the archive of the remote are three texts, each of which
is split before the next one is made of its parts:

    word:user/repository#ref
    git+ssh://git@host/user/project.git#ref
    https://server/user/project/…/ref…

Where user and repository hold no slash and nothing holds a mark, all that was put into one text is
read back when the next one is made (`archive_of_shorthand`). So the archive is that of the user's
project, which is the repository without one ending `.git`, for the ref as it was written. At
gitlab.com this needs that the repository's name does not begin as the path of an archive does. -/

set_option autoImplicit false

namespace LockPrefetch

open Url (SpellsScheme Begins isKept)

namespace Shorthand

variable {provider : Provider} {word host user repository ref : String}

/-! ## Services -/

/-- **A code host with shorthands**: their word, the host, and the text of the URL at which the
archive of a user's project is served for a ref. -/
structure Service where
  word : String
  host : String
  archive : String → String → String → String

/-- **The code hosts with shorthands**. -/
def services : List Service :=
  [{ word := "github"
     host := "github.com"
     archive := fun user project ref =>
       "https://codeload.github.com/" ++ user ++ "/" ++ project ++ "/tar.gz/" ++ ref },
   { word := "bitbucket"
     host := "bitbucket.org"
     archive := fun user project ref =>
       "https://bitbucket.org/" ++ user ++ "/" ++ project ++ "/get/" ++ ref ++ ".tar.gz" },
   { word := "gitlab"
     host := "gitlab.com"
     archive := fun user project ref =>
       "https://gitlab.com/" ++ user ++ "/" ++ project ++
         "/repository/archive.tar.gz?ref=" ++ ref }]

variable {service : Service}

/-- **A provider runs a service**: the word is a scheme of shorthands, which need no authority, and
the host is the one at which the provider's remotes lie. -/
structure Service.RunBy (service : Service) (provider : Provider) : Prop where
  spells : SpellsScheme service.word.toList
  lower : service.word.toList.map Char.toLower = service.word.toList
  bare : service.word ∉ Url.authoritySchemes
  host : (service.word, service.host) ∈ hosts
  remote : ∀ parts, (remoteParts service.host parts).host? = some service.host
  known : Provider.ofHost? service.host = some provider
  archive : service.archive = provider.archiveText
  query : provider = .gitlab → service.word = "gitlab"

theorem host?_remoteParts (h : (Url.Parts.mk "" ("git@" ++ host) "" "" "").host? = some host)
    (parts : Url.Parts) : (remoteParts host parts).host? = some host := by
  rw [← h]
  exact Url.Parts.host?_congr rfl

theorem exists_runBy (h : service ∈ services) : ∃ provider, service.RunBy provider := by
  simp only [services, List.mem_cons, List.not_mem_nil, or_false] at h
  rcases h with rfl | rfl | rfl
  · exact ⟨.github, ⟨'g', "ithub".toList, rfl, by decide, by decide⟩, by decide, by decide,
      by decide, host?_remoteParts (by decide +kernel), by decide, rfl, by decide⟩
  · exact ⟨.bitbucket, ⟨'b', "itbucket".toList, rfl, by decide, by decide⟩, by decide, by decide,
      by decide, host?_remoteParts (by decide +kernel), by decide, rfl, by decide⟩
  · exact ⟨.gitlab, ⟨'g', "itlab".toList, rfl, by decide, by decide⟩, by decide, by decide,
      by decide, host?_remoteParts (by decide +kernel), by decide, rfl, by decide⟩

/-- The word of a service is a scheme in any letter case. -/
theorem Service.RunBy.spells_of_lower (h : service.RunBy provider)
    (hword : word.toList.map Char.toLower = service.word.toList) : SpellsScheme word.toList := by
  rw [← Url.spellsScheme_toLower, hword]
  exact h.spells

/-! ## The shorthand -/

/-- **The names in a shorthand**: a user, a repository and a ref without marks. -/
structure Named (user repository ref : String) : Prop where
  someUser : user ≠ ""
  user : Url.Plain user
  repository : Url.Plain repository
  someRef : ref ≠ ""
  ref : ∀ c ∈ ref.toList, isKept c = true ∧ c ≠ '?' ∧ c ≠ '#'

/-- The parts of a shorthand. -/
def shortParts (word user repository ref : String) : Url.Parts :=
  ⟨word, "", user ++ "/" ++ repository, "", ref⟩

theorem toList_shortPath (user repository : String) :
    (user ++ "/" ++ repository).toList = user.toList ++ '/' :: repository.toList := by
  simp

/-- A shorthand has no authority. -/
theorem not_spellsAuthority (hbare : word ∉ Url.authoritySchemes) (user repository ref : String) :
    ¬ (shortParts word user repository ref).spellsAuthority = true := by
  intro hsome
  rcases Url.spellsAuthority_iff.1 hsome with hsome | ⟨hsome, _⟩
  · exact hsome rfl
  · exact hbare hsome

namespace Named

/-- The path of a shorthand begins with neither a slash nor a line end. -/
theorem exists_cons (h : Named user repository ref) :
    ∃ first more, user.toList = first :: more ∧ first ≠ '/' ∧ first ≠ '\n' := by
  cases hlist : user.toList with
  | nil => exact absurd (String.toList_eq_nil_iff.1 hlist) h.someUser
  | cons first more =>
    have hmem : first ∈ user.toList := by
      rw [hlist]
      exact List.mem_cons_self
    refine ⟨first, more, rfl, ?_, ?_⟩
    · rintro rfl
      exact h.user.not_mem rfl hmem
    · rintro rfl
      exact absurd (h.user _ hmem).1 (by decide)

theorem apart (h : Named user repository ref) (word : String) :
    (shortParts word user repository ref).Apart := by
  constructor
  · intro c hc
    cases hc
  · intro c hc
    rw [shortParts, toList_shortPath, List.mem_append, List.mem_cons] at hc
    rcases hc with hc | rfl | hc
    · exact ⟨(h.user c hc).1, h.user.unmarked hc⟩
    · decide
    · exact ⟨(h.repository c hc).1, h.repository.unmarked hc⟩
  · intro c hc
    cases hc
  · exact fun c hc => (h.ref c hc).1

theorem behindScheme_eq (h : Named user repository ref) (hbare : word ∉ Url.authoritySchemes) :
    (shortParts word user repository ref).behindScheme =
      user.toList ++ '/' :: (repository.toList ++ '#' :: ref.toList) := by
  rw [Url.Parts.behindScheme, if_neg (not_spellsAuthority hbare _ _ _)]
  simp [shortParts, Url.marked, h.someRef]

theorem reread_eq (h : Named user repository ref) (hbare : word ∉ Url.authoritySchemes) :
    (shortParts word user repository ref).reread = shortParts word user repository ref := by
  obtain ⟨first, more, hfirst, hslash, _⟩ := h.exists_cons
  refine Url.Parts.reread_of_ne (not_spellsAuthority hbare _ _ _) fun rest hrest => ?_
  rw [shortParts, toList_shortPath, hfirst] at hrest
  exact hslash (List.cons.inj hrest).1

theorem proper (h : Named user repository ref) (hservice : service.RunBy provider) :
    (shortParts service.word user repository ref).Proper :=
  ⟨Or.inr ⟨hservice.spells, hservice.lower⟩, rfl, fun hsome => absurd rfl hsome, h.apart _⟩

/-- **A shorthand is split** into its parts, in any letter case of the word. -/
theorem split_eq (h : Named user repository ref) (hservice : service.RunBy provider)
    (hword : word.toList.map Char.toLower = service.word.toList) {text : String}
    (htext : text.toList = word.toList ++
      ':' :: (shortParts service.word user repository ref).behindScheme) :
    Url.split text = .ok (shortParts service.word user repository ref) := by
  have hproper := h.proper hservice
  have hspells := hservice.spells_of_lower hword
  have hkept : ∀ c ∈ (shortParts service.word user repository ref).behindScheme,
      isKept c = true := fun c hc => hproper.apart.isKept_of_mem hc
  -- the joined parts have the same scheme, in small letters, and the same rest
  rw [← hproper.split_join_of_reread (h.reread_eq hservice.bare)]
  apply Url.split_congr
  rw [htext, Url.takeScheme_clean hspells, hword, List.filter_eq_self.2 hkept,
    hproper.takeScheme_join]
  rfl

/-- **A shorthand is tagged a URL**, which has its parts. -/
theorem parse_eq (h : Named user repository ref) (hservice : service.RunBy provider)
    (hword : word.toList.map Char.toLower = service.word.toList) :
    Specifier.parse (word ++ ":" ++ user ++ "/" ++ repository ++ "#" ++ ref) =
      .url ⟨(shortParts service.word user repository ref).join⟩ := by
  obtain ⟨first, more, hfirst, _, hline⟩ := h.exists_cons
  have hbehind := h.behindScheme_eq hservice.bare
  have htext : (word ++ ":" ++ user ++ "/" ++ repository ++ "#" ++ ref).toList = word.toList ++
      ':' :: (shortParts service.word user repository ref).behindScheme := by
    rw [hbehind]
    simp
  have hspells := hservice.spells_of_lower hword
  have hlooks : Specifier.looksLikeUrl
      (word ++ ":" ++ user ++ "/" ++ repository ++ "#" ++ ref).toList = true := by
    rw [htext, hbehind, hfirst]
    exact Url.looksLikeUrl_of_spells hspells hline _
  rw [Specifier.parse, if_pos hlooks, Url.parse_of_split (h.split_eq hservice hword htext)]

theorem parts_eq (h : Named user repository ref) (hservice : service.RunBy provider) :
    Url.parts ⟨(shortParts service.word user repository ref).join⟩ =
      .ok (shortParts service.word user repository ref) :=
  (h.proper hservice).split_join_of_reread (h.reread_eq hservice.bare)

end Named

/-! ## The remote -/

theorem withGit_append (user repository : String) :
    withGit (user ++ "/" ++ repository) = user ++ "/" ++ withGit repository := by
  have hsuffix : ".git".toList <:+ (user ++ "/" ++ repository).toList ↔
      ".git".toList <:+ repository.toList := by
    rw [toList_shortPath]
    exact Text.suffix_append_iff (by decide) _ _
  unfold withGit
  by_cases hgit : ".git".toList <:+ repository.toList
  · rw [if_pos hgit, if_pos (hsuffix.2 hgit)]
  · rw [if_neg hgit, if_neg fun hwrong => hgit (hsuffix.1 hwrong), String.append_assoc]

theorem exists_withGit_eq (name : String) : ∃ project, withGit name = project ++ ".git" := by
  obtain ⟨front, hfront⟩ := ending_withGit name
  refine ⟨String.ofList front, String.toList_inj.1 ?_⟩
  rw [String.toList_append, String.toList_ofList, hfront]

/-- A name that does not begin as the path of an archive is not made to by its ending. -/
theorem not_archive_withGit (h : ¬ "archive.tar.gz".toList <+: repository.toList) :
    ¬ "archive.tar.gz".toList <+: (withGit repository).toList := by
  unfold withGit
  split
  · exact h
  · rw [String.toList_append]
    rintro ⟨behind, hbehind⟩
    rcases List.append_eq_append_iff.1 hbehind with ⟨more, hmore, _⟩ | ⟨more, hmore, hgit⟩
    · exact h ⟨more, hmore.symm⟩
    · -- no part of it but the empty one begins the ending
      have hnone : ∀ part ∈ ".git".toList.inits, part <:+ "archive.tar.gz".toList → part = [] := by
        decide
      have hempty := hnone more ((List.mem_inits _ _).2 ⟨behind, hgit.symm⟩) ⟨_, hmore.symm⟩
      rw [hempty, List.append_nil] at hmore
      exact h ⟨[], by rw [hmore, List.append_nil]⟩

namespace Named

/-- The path of the remote. -/
theorem remotePath_eq (h : Named user repository ref) (host word : String) :
    (remoteParts host (shortParts word user repository ref)).path =
      "/" ++ user ++ "/" ++ withGit repository := by
  obtain ⟨first, more, hfirst, hslash, _⟩ := h.exists_cons
  have hnone : ¬ "/".toList <+: (user ++ "/" ++ withGit repository).toList := by
    rw [slash_prefix_iff, toList_shortPath, hfirst]
    simpa using hslash
  rw [remoteParts, shortParts, withGit_append, withSlash, if_neg hnone]
  simp only [String.append_assoc]

/-- **The text of the remote.** -/
theorem join_remoteParts (h : Named user repository ref) (host word : String) :
    (remoteParts host (shortParts word user repository ref)).join =
      "git+ssh://git@" ++ host ++ "/" ++ user ++ "/" ++ withGit repository ++ "#" ++ ref := by
  have hnamed : (remoteParts host (shortParts word user repository ref)).authority ≠ "" := by
    simp [remoteParts]
  have hpath := h.remotePath_eq host word
  have hbegins :
      Begins ['/'] (remoteParts host (shortParts word user repository ref)).path.toList := by
    intro c hc
    simpa [hpath, eq_comm] using hc
  apply String.toList_inj.1
  rw [Url.toList_join (show "git+ssh" ≠ "" by decide), Url.behindScheme_of_named hnamed hbegins,
    hpath]
  simp [remoteParts, shortParts, Url.marked, h.someRef]

theorem slash_not_mem_withGit (h : Named user repository ref) :
    '/' ∉ (withGit repository).toList := by
  intro hmem
  rcases mem_withGit hmem with hmem | hmem
  · exact h.repository.not_mem rfl hmem
  · exact absurd hmem (by decide)

theorem toList_remotePath (h : Named user repository ref) (host word : String) :
    (remoteParts host (shortParts word user repository ref)).path.toList =
      '/' :: (user.toList ++ '/' :: (withGit repository).toList) := by
  rw [h.remotePath_eq]
  simp

theorem segments_remoteParts (h : Named user repository ref) (host word : String) :
    (remoteParts host (shortParts word user repository ref)).segments =
      [user, withGit repository] := by
  rw [Url.Parts.segments_eq, Url.Parts.relativePath_of_slash (h.toList_remotePath host word),
    Text.pieces_append (h.user.not_mem rfl), Text.pieces_of_not_mem h.slash_not_mem_withGit]
  simp only [List.map_cons, List.map_nil, String.ofList_toList]

/-- **The remote names the ref** to its provider: at gitlab.com its path does not look like that of
an archive. -/
theorem ref?_remoteParts (h : Named user repository ref) (host word : String)
    (harchive : provider = .gitlab → ¬ "archive.tar.gz".toList <+: repository.toList) :
    provider.ref? (remoteParts host (shortParts word user repository ref)) = some ref := by
  have hfragment : (remoteParts host (shortParts word user repository ref)).fragment? = some ref :=
    if_neg h.someRef
  have hsegments := h.segments_remoteParts host word
  cases provider with
  | github => simp [Provider.ref?, hsegments, hfragment]
  | bitbucket => simp [Provider.ref?, hsegments, hfragment]
  | sourcehut => simp [Provider.ref?, hsegments, hfragment]
  | gitlab =>
    have huser : '/' ∉ user.toList := h.user.not_mem rfl
    have hdrop : (remoteParts host (shortParts word user repository ref)).path.toList.drop 1 =
        user.toList ++ '/' :: (withGit repository).toList := by
      rw [h.toList_remotePath]
      rfl
    -- what begins with a slash could only stand behind the user
    have hhome : ¬ Text.holds "/~/".toList
        (user.toList ++ '/' :: (withGit repository).toList) = true := by
      intro hholds
      have hprefix := Text.prefix_of_infix huser h.slash_not_mem_withGit (Text.holds_iff.1 hholds)
      have hslash : '/' ∈ ['~', '/'] := by decide
      exact h.slash_not_mem_withGit (List.IsPrefix.subset hprefix hslash)
    have hserved : ¬ Text.holds "/archive.tar.gz".toList
        (user.toList ++ '/' :: (withGit repository).toList) = true := by
      intro hholds
      exact not_archive_withGit (harchive rfl)
        (Text.prefix_of_infix huser h.slash_not_mem_withGit (Text.holds_iff.1 hholds))
    unfold Provider.ref?
    simp only [hdrop, hhome, hserved, hfragment]
    rfl

end Named

/-! ## The archive -/

/-- **From a shorthand to the archive**: a shorthand is tagged a URL in any letter case of its
word, its remote has the ending `.git` once more unless it is there already, and the archive of the
remote is that of user, project and ref. -/
theorem archive_of_shorthand (hservice : service ∈ services)
    (hword : word.toList.map Char.toLower = service.word.toList)
    (hnamed : Named user repository ref)
    (harchive : service.word = "gitlab" → ¬ "archive.tar.gz".toList <+: repository.toList) :
    ∃ short project,
      Specifier.parse (word ++ ":" ++ user ++ "/" ++ repository ++ "#" ++ ref) = .url short ∧
      rewrite short = .ok ⟨"git+ssh://git@" ++ service.host ++ "/" ++ user ++ "/" ++
        withGit repository ++ "#" ++ ref⟩ ∧
      withGit repository = project ++ ".git" ∧
      HostedArchive.ofUrl? ⟨"git+ssh://git@" ++ service.host ++ "/" ++ user ++ "/" ++
        withGit repository ++ "#" ++ ref⟩ =
          .ok (some ⟨⟨service.archive user project ref⟩, ref⟩) := by
  obtain ⟨provider, hprovider⟩ := exists_runBy hservice
  obtain ⟨project, hproject⟩ := exists_withGit_eq repository
  obtain ⟨first, more, hfirst, hslash, _⟩ := hnamed.exists_cons
  have hpath : ∃ c ∈ (shortParts service.word user repository ref).path.toList, c ≠ '/' := by
    refine ⟨first, ?_, hslash⟩
    rw [shortParts, toList_shortPath, hfirst]
    exact List.mem_cons_self
  have hrewrite := rewrite_of_path (hnamed.parts_eq hprovider) hprovider.host hpath
  have hremote := Url.split_join (legible_remoteParts hprovider.host (hnamed.apart service.word))
  rw [hnamed.join_remoteParts] at hrewrite hremote
  -- the remote is read back, and names the repository and the ref
  have hnames : (remoteParts service.host
      (shortParts service.word user repository ref)).NamesRepository provider user project := by
    refine ⟨⟨service.host, hprovider.remote _, hprovider.known⟩, withGit repository, [],
      hnamed.segments_remoteParts _ _, ?_⟩
    rw [hproject, String.toList_append, Text.withoutEnding_append_self, String.ofList_toList]
  have hscheme : "git+ssh" ∈ HostedArchive.schemes := by decide
  have hsource := HostedArchive.source?_of_names hscheme hnames
    (hnamed.ref?_remoteParts _ _ fun hgitlab => harchive (hprovider.query hgitlab))
  have hfit : Fit user project ref :=
    ⟨hnamed.user, (hnames.plain (Url.apart_of_split hremote)).2, fun c hc => (hnamed.ref c hc).1⟩
  have hunmarked : provider.Unmarked ref :=
    ⟨fun hmem => (hnamed.ref _ hmem).2.2 rfl, Or.inr fun hmem => (hnamed.ref _ hmem).2.1 rfl⟩
  refine ⟨_, project, hnamed.parse_eq hprovider hword, hrewrite, hproject, ?_⟩
  rw [hprovider.archive]
  exact HostedArchive.ofUrl?_of_source? hremote hsource (Provider.parse_archiveText hfit hunmarked)

/-- A repository whose name begins as the path of an archive does, up to its ending. -/
theorem archive_of_shorthand_near_archive :
    ∃ short, Specifier.parse "GitLab:a:b@c/archive.tar#v1/é x" = .url short ∧
      rewrite short = .ok ⟨"git+ssh://git@gitlab.com/a:b@c/archive.tar.git#v1/é x"⟩ ∧
      HostedArchive.ofUrl? ⟨"git+ssh://git@gitlab.com/a:b@c/archive.tar.git#v1/é x"⟩ = .ok (some
        ⟨⟨"https://gitlab.com/a:b@c/archive.tar/repository/archive.tar.gz?ref=v1/é x"⟩,
          "v1/é x"⟩) := by
  have href : "v1/é x".toList.all (fun c => isKept c && c != '?' && c != '#') = true := by decide
  have hnamed : Named "a:b@c" "archive.tar" "v1/é x" := by
    refine ⟨by decide, Url.plain_of_all (by decide), Url.plain_of_all (by decide), by decide, ?_⟩
    intro c hc
    simpa [and_assoc] using List.all_eq_true.1 href c hc
  have hservice : services[2] ∈ services := List.getElem_mem _
  have hword : "GitLab".toList.map Char.toLower = services[2].word.toList := by decide
  obtain ⟨short, project, hparse, hrewrite, hproject, harchive⟩ :=
    archive_of_shorthand hservice hword hnamed (by decide)
  have hgit : withGit "archive.tar" = "archive.tar" ++ ".git" := by decide
  obtain rfl := (String.append_left_inj ".git").1 (hgit.symm.trans hproject)
  rw [hgit] at hrewrite harchive
  exact ⟨short, hparse, hrewrite, harchive⟩

end Shorthand

end LockPrefetch
