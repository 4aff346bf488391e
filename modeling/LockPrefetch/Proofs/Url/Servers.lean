import LockPrefetch.Proofs.Url.Archives

/-! # The servers of archives

The archive of a remote is served by one host, which depends on the remote's host alone (`servers`).
Nothing of the remote but user, project and ref is carried over, and none of these reaches into the
authority. An archive's URL is not rewritten again (`HostedArchive.served`): at github.com another
host serves the archives, and at the others the path shows that it leads to one, since what stands
in front of the ref in it is read back whatever the ref is. -/

set_option autoImplicit false

namespace LockPrefetch

variable {url : Url} {parts otherParts : Url.Parts} {provider : Provider}
  {user project ref kind : String} {archive : HostedArchive}

/-- **The hosts of remotes**, and the hosts that serve their archives. -/
def servers : List (String × String) :=
  [("github.com", "codeload.github.com"), ("bitbucket.org", "bitbucket.org"),
   ("gitlab.com", "gitlab.com"), ("git.sr.ht", "git.sr.ht")]

theorem Provider.mem_servers {host : String} (h : Provider.ofHost? host = some provider) :
    (host, provider.archiveHost) ∈ servers := by
  unfold Provider.ofHost? at h
  split at h <;> cases h <;> decide

/-! ## Hosts and segments -/

/-- The third segment stands between the third slash and the fourth. -/
theorem Url.Parts.third_segment {more : List Char} (huser : Url.Plain user)
    (hproject : Url.Plain project) (hkind : '/' ∉ kind.toList)
    (h : parts.path.toList = '/' :: (user.toList ++ '/' :: (project.toList ++
      '/' :: (kind.toList ++ '/' :: more)))) :
    parts.segments[2]? = some kind := by
  rw [segments_eq, relativePath_of_slash h, Text.pieces_append (huser.not_mem rfl),
    Text.pieces_append (hproject.not_mem rfl), Text.pieces_append hkind]
  simp only [List.map_cons, List.getElem?_cons_succ, List.getElem?_cons_zero, String.ofList_toList]

/-! ## Archives are left alone -/

namespace Provider

theorem host?_sentParts (provider : Provider) (user project ref : String) :
    (provider.sentParts user project ref).host? = some provider.archiveHost := by
  have hhost : (Url.Parts.mk "" provider.archiveHost "" "" "").host? =
      some provider.archiveHost := by
    cases provider <;> decide +kernel
  rw [← hhost]
  exact Url.Parts.host?_congr (provider.sentParts_authority user project ref)

/-- **An archive names no ref** to its own provider, whatever is put into its URL. -/
theorem ref?_sentParts (provider : Provider) (h : Fit user project ref)
    (hserves : ofHost? provider.archiveHost = some provider) :
    provider.ref? (provider.sentParts user project ref) = none := by
  obtain ⟨more, hpath⟩ := provider.sentParts_path h
  cases provider with
  | github => exact absurd hserves (by decide)
  | bitbucket =>
    have hplace : bitbucket.place = '/' :: ("get".toList ++ ['/']) := by decide
    rw [hplace, List.cons_append, List.append_assoc] at hpath
    have hthird := Url.Parts.third_segment h.user h.project (by decide) hpath
    unfold ref?
    exact if_pos hthird
  | gitlab =>
    have hplace : gitlab.place = "/repository".toList ++ "/archive.tar.gz".toList := by decide
    have hholds : Text.holds "/archive.tar.gz".toList
        ((gitlab.sentParts user project ref).path.toList.drop 1) = true := by
      rw [Text.holds_iff, hpath, hplace]
      exact ⟨user.toList ++ '/' :: (project.toList ++ "/repository".toList), more, by simp⟩
    unfold ref?
    simp only [hholds, Bool.or_true, if_true]
  | sourcehut =>
    have hplace : sourcehut.place = '/' :: ("archive".toList ++ ['/']) := by decide
    rw [hplace, List.cons_append, List.append_assoc] at hpath
    have hthird := Url.Parts.third_segment h.user h.project (by decide) hpath
    unfold ref?
    exact if_pos hthird

/-- **An archive is no source** of another one. -/
theorem source?_sentParts (provider : Provider) (h : Fit user project ref) :
    HostedArchive.source? (provider.sentParts user project ref) = none := by
  cases hsource : HostedArchive.source? (provider.sentParts user project ref) with
  | none => rfl
  | some source =>
    obtain ⟨other, _, _, _⟩ := source
    obtain ⟨hnames, href⟩ := HostedArchive.source?_eq_some hsource
    obtain ⟨host, hhost, hother⟩ := hnames.host
    rw [host?_sentParts, Option.some.injEq] at hhost
    -- where a provider serves its own archives, the other one is the same
    have hsame : ofHost? provider.archiveHost = some provider ∧ other = provider := by
      rw [← hhost] at hother
      revert hother
      cases provider <;> cases other <;> decide
    rw [hsame.2, provider.ref?_sentParts h hsame.1] at href
    cases href

end Provider

theorem HostedArchive.ofUrl?_of_source?_none (hparts : url.parts = .ok parts)
    (h : source? parts = none) : ofUrl? url = .ok none := by
  rw [ofUrl?, hparts]
  simp only [h, bind, Except.bind, pure, Except.pure]

/-- **Archives stay with their providers**: the URL of an archive can be split, leads to the server
for the host of the remote and to nothing else, and is not rewritten again. -/
theorem HostedArchive.served (h : HostedArchive.ofUrl? url = .ok (some archive)) :
    ∃ parts host server sent, url.parts = .ok parts ∧ parts.host? = some host ∧
      (host, server) ∈ servers ∧ archive.url.parts = .ok sent ∧ sent.scheme = "https" ∧
      sent.authority = server ∧ HostedArchive.ofUrl? archive.url = .ok none := by
  obtain ⟨provider, user, project, hrewrites⟩ := exists_rewrites h
  obtain ⟨parts, hparts, hnames⟩ := hrewrites.repository
  obtain ⟨host, hhost, hprovider⟩ := hnames.host
  have hsent := hrewrites.parts_url
  exact ⟨parts, host, provider.archiveHost, _, hparts, hhost, Provider.mem_servers hprovider,
    hsent, String.ofList_toList, provider.sentParts_authority _ _ _,
    ofUrl?_of_source?_none hsent (provider.source?_sentParts hrewrites.made.2)⟩

/-- A remote with user information, a port, capital letters, no user and marks in its ref. -/
theorem HostedArchive.served_marked_ref :
    HostedArchive.ofUrl? ⟨"git+ssh://git@BitBucket.org:22//b.git#a?b#c"⟩ =
        .ok (some ⟨⟨"https://bitbucket.org//b/get/a?b#c.tar.gz"⟩, "a?b#c"⟩) ∧
      ∃ sent, Url.parts ⟨"https://bitbucket.org//b/get/a?b#c.tar.gz"⟩ = .ok sent ∧
        sent.scheme = "https" ∧ sent.authority = "bitbucket.org" ∧
        HostedArchive.ofUrl? ⟨"https://bitbucket.org//b/get/a?b#c.tar.gz"⟩ = .ok none := by
  have harchive : HostedArchive.ofUrl? ⟨"git+ssh://git@BitBucket.org:22//b.git#a?b#c"⟩ =
      .ok (some ⟨⟨"https://bitbucket.org//b/get/a?b#c.tar.gz"⟩, "a?b#c"⟩) := by decide +kernel
  have hremote : Url.parts ⟨"git+ssh://git@BitBucket.org:22//b.git#a?b#c"⟩ =
      .ok ⟨"git+ssh", "git@BitBucket.org:22", "//b.git", "", "a?b#c"⟩ := by decide +kernel
  obtain ⟨parts, host, server, sent, hparts, hhost, hserver, hsent, hscheme, hauthority, hnone⟩ :=
    HostedArchive.served harchive
  cases hremote.symm.trans hparts
  have hname : (Url.Parts.mk "git+ssh" "git@BitBucket.org:22" "//b.git" "" "a?b#c").host? =
      some "bitbucket.org" := by decide +kernel
  cases hname.symm.trans hhost
  have hown : server = "bitbucket.org" := by
    revert hserver
    simp [servers]
  exact ⟨harchive, sent, hsent, hscheme, hauthority.trans hown, hnone⟩

end LockPrefetch
