import LockPrefetch.Hosted
import LockPrefetch.Proofs.Url.Splitting

/-! # Looking for archives

The URL of an archive is made of parts of another URL, behind a host of its own. So it can be read
whatever user, project and ref are (`Provider.exists_parse_archiveText`), and looking for the
archive of a URL fails only where the URL itself cannot be split. -/

set_option autoImplicit false

namespace LockPrefetch

open Url (SpellsScheme Begins enders endsAuthority isKept checkAuthority)

variable {url : Url} {fault : Url.Malformed}

/-- An authority that is accepted and is read back as a whole. -/
def Url.Accepted (authority : String) : Prop :=
  (∀ c ∈ authority.toList, endsAuthority c = false ∧ isKept c = true) ∧
    checkAuthority authority.toList = .ok ()

theorem Url.accepted_of_all {authority : String}
    (h : authority.toList.all (fun c => !endsAuthority c && isKept c) = true)
    (hcheck : checkAuthority authority.toList = .ok ()) : Url.Accepted authority := by
  refine ⟨fun c hc => ?_, hcheck⟩
  simpa using List.all_eq_true.1 h c hc

/-! ## Archives -/

namespace Provider

/-- The host that serves the archives of a provider. -/
def archiveHost : Provider → String
  | .github => "codeload.github.com"
  | .bitbucket => "bitbucket.org"
  | .gitlab => "gitlab.com"
  | .sourcehut => "git.sr.ht"

/-- What stands between project and ref in the URL text of an archive. -/
def beforeRef : Provider → String
  | .github => "/tar.gz/"
  | .bitbucket => "/get/"
  | .gitlab => "/repository/archive.tar.gz?ref="
  | .sourcehut => "/archive/"

/-- What stands behind the ref in the URL text of an archive. -/
def behindRef : Provider → String
  | .bitbucket | .sourcehut => ".tar.gz"
  | .github | .gitlab => ""

theorem accepted_archiveHost (provider : Provider) : Url.Accepted provider.archiveHost := by
  cases provider <;> exact Url.accepted_of_all (by decide) (by decide)

variable (provider : Provider) (user project ref : String)

theorem archiveText_eq : provider.archiveText user project ref =
    "https://" ++ (provider.archiveHost ++ ("/" ++ (user ++ ("/" ++ (project ++
      (provider.beforeRef ++ (ref ++ provider.behindRef))))))) := by
  have hfront : ∃ front, front = "https://" ++ (provider.archiveHost ++ "/") ∧
      provider.archiveText user project ref =
        front ++ user ++ "/" ++ project ++ provider.beforeRef ++ ref ++ provider.behindRef := by
    cases provider with
    | github => exact ⟨"https://codeload.github.com/", by decide, String.append_empty.symm⟩
    | bitbucket => exact ⟨"https://bitbucket.org/", by decide, rfl⟩
    | gitlab => exact ⟨"https://gitlab.com/", by decide, String.append_empty.symm⟩
    | sourcehut => exact ⟨"https://git.sr.ht/", by decide, rfl⟩
  obtain ⟨front, rfl, htext⟩ := hfront
  rw [htext]
  simp only [String.append_assoc]

/-- What stands behind the host in the URL text of an archive. -/
def behindHost : List Char :=
  '/' :: (user.toList ++ '/' :: (project.toList ++
    (provider.beforeRef.toList ++ (ref.toList ++ provider.behindRef.toList))))

theorem toList_archiveText : (provider.archiveText user project ref).toList = "https".toList ++
    ':' :: '/' :: '/' :: (provider.archiveHost.toList ++ provider.behindHost user project ref) := by
  rw [archiveText_eq]
  simp only [String.toList_append]
  rfl

/-- **The URL text of an archive is split** behind the host of its provider, whatever user,
project and ref are. -/
theorem split_archiveText : Url.split (provider.archiveText user project ref) =
    .ok (Url.partsBehind "https".toList ('/' :: '/' :: (provider.archiveHost.toList ++
      (provider.behindHost user project ref).filter isKept))) := by
  obtain ⟨hhost, hcheck⟩ := provider.accepted_archiveHost
  have hscheme : SpellsScheme "https".toList := ⟨'h', "ttps".toList, rfl, by decide, by decide⟩
  have hpath : Begins enders (provider.behindHost user project ref) := by
    intro c hc
    cases hc
    decide
  exact Url.split_spelled hscheme hhost hcheck hpath
    (provider.toList_archiveText user project ref)

/-- **The URL of an archive can be read**, whatever user, project and ref are. -/
theorem exists_parse_archiveText :
    ∃ archive, Url.parse (provider.archiveText user project ref) = .ok archive :=
  ⟨_, by rw [Url.parse, split_archiveText]; rfl⟩

end Provider

/-- **Looking for the archive of a URL** fails exactly if the URL cannot be split. -/
theorem HostedArchive.ofUrl?_eq_error_iff :
    ofUrl? url = .error fault ↔ url.parts = .error fault := by
  rw [ofUrl?]
  cases url.parts with
  | error other => simp [bind, Except.bind]
  | ok parts =>
    cases hsource : source? parts with
    | none => simp [hsource, bind, Except.bind, pure, Except.pure]
    | some source =>
      obtain ⟨provider, user, project, ref⟩ := source
      obtain ⟨archive, harchive⟩ := provider.exists_parse_archiveText user project ref
      simp [hsource, harchive, bind, Except.bind, pure, Except.pure]

end LockPrefetch
