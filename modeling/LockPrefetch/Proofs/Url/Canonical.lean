import LockPrefetch.Proofs.Url.Rejoining

/-! # Texts in canonical form

The text of a URL should be in canonical form: reading it gives the same URL again, and scheme,
authority and fragment are those of the text that it was made of (`Canonical`). It is, unless the
path begins with two slashes behind an empty authority, as in

    scheme:////hidden/path

Joined, this is `scheme://hidden/path`, which has an authority, and with more slashes a text loses
two of them whenever it is read. Only where the scheme is one that names an authority, and one
slash or none follows the two, nothing is changed by reading again (`canonical_iff`). -/

set_option autoImplicit false

namespace LockPrefetch.Url

variable {path more : List Char} {p q : Parts} {u : Url}

/-- **A URL is canonical** for the parts of a text: it is read from its own text, and has the
scheme, the authority and the fragment of these parts. -/
structure Canonical (p : Parts) (u : Url) : Prop where
  again : parse u.text = .ok u
  kept : ∃ read, u.parts = .ok read ∧ read.scheme = p.scheme ∧ read.authority = p.authority ∧
    read.fragment = p.fragment

/-- **Settled parts**: behind an empty authority a path begins with two slashes only if the
scheme is one that names an authority, and behind them the path ends or has just one slash. -/
def Parts.Settled (p : Parts) : Prop :=
  p.authority = "" → ∀ more, p.path.toList = '/' :: '/' :: more →
    p.scheme ∈ authoritySchemes ∧ Begins ['/'] more ∧ ∀ rest, more ≠ '/' :: '/' :: rest

/-! ## Reading twice -/

/-- Texts that are joined behind the same scheme differ behind it. -/
theorem join_eq_iff (hscheme : q.scheme = p.scheme) :
    q.join = p.join ↔ q.behindScheme = p.behindScheme := by
  rw [← String.toList_inj]
  by_cases hempty : p.scheme = ""
  · rw [toList_join_of_empty hempty, toList_join_of_empty (hscheme.trans hempty)]
  · rw [toList_join hempty, toList_join (hscheme ▸ hempty), hscheme, List.append_cancel_left_eq,
      List.cons_inj_right]

/-- **The text of a URL is canonical** exactly if what is read of it has the same authority, and is
joined to the same text. -/
theorem canonical_iff_reread (h : p.Proper) :
    Canonical p ⟨p.join⟩ ↔ p.reread.authority = p.authority ∧ p.reread.join = p.join := by
  constructor
  · rintro ⟨hagain, read, hread, _, hauthority, _⟩
    rw [parts, h.split_join] at hread
    obtain ⟨_, hcheck, rfl⟩ := map_eq_ok_iff.1 hread
    rw [parse, h.split_join, hcheck] at hagain
    exact ⟨hauthority, congrArg Url.text (Except.ok.inj hagain)⟩
  · rintro ⟨hauthority, hjoin⟩
    have hread : split p.join = .ok p.reread := by
      rw [h.split_join, hauthority, h.accepted]
      rfl
    refine ⟨?_, p.reread, hread, p.reread_scheme, hauthority, p.reread_fragment⟩
    rw [parse, hread, ← hjoin]
    rfl

/-! ## An authority that is spelled out -/

theorem rooted_ne_slashes (h : ∀ more, path ≠ '/' :: '/' :: more) (more : List Char) :
    rooted path ≠ '/' :: '/' :: more := by
  intro hrooted
  cases path with
  | nil => cases hrooted
  | cons c rest =>
    by_cases hslash : c = '/'
    · rw [rooted, if_pos hslash] at hrooted
      exact h more hrooted
    · rw [rooted, if_neg hslash] at hrooted
      exact hslash (List.cons.inj (List.cons.inj hrooted).2).1

/-- The slash in front of a path is put there once. -/
theorem reread_of_spelled (h : p.spellsAuthority = true) :
    p.reread.authority = p.authority ∧ p.reread.join = p.join := by
  have hreread : p.reread = { p with path := String.ofList (rooted p.path.toList) } := if_pos h
  have hagain : p.reread.spellsAuthority = true := by
    rw [spellsAuthority_iff] at h ⊢
    rw [hreread, String.toList_ofList]
    exact h.imp_right fun ⟨hscheme, hpath⟩ => ⟨hscheme, rooted_ne_slashes hpath⟩
  refine ⟨by rw [hreread], (join_eq_iff p.reread_scheme).2 ?_⟩
  rw [Parts.behindScheme, Parts.behindScheme, if_pos hagain, if_pos h, hreread]
  simp only [String.toList_ofList, rooted_eq (begins_rooted _)]

/-! ## Paths that begin with two slashes -/

theorem takeAuthority_slashes (h : Begins ['/'] more) :
    takeAuthority ('/' :: '/' :: more) = ([], more) :=
  takeAuthority_spelled (fun _ hc => absurd hc List.not_mem_nil) (h.mono (by decide))

section Slashes

variable (hauthority : p.authority = "") (hpath : p.path.toList = '/' :: '/' :: more)
include hauthority hpath

theorem settled_iff : p.Settled ↔
    p.scheme ∈ authoritySchemes ∧ Begins ['/'] more ∧ ∀ rest, more ≠ '/' :: '/' :: rest := by
  constructor
  · exact fun h => h hauthority more hpath
  · intro h _ other hother
    rw [hpath, List.cons_inj_right, List.cons_inj_right] at hother
    exact hother ▸ h

theorem not_spellsAuthority : ¬ p.spellsAuthority = true := by
  rw [spellsAuthority_iff]
  rintro (hsome | ⟨_, hslashes⟩)
  · exact hsome hauthority
  · exact hslashes more hpath

/-- The two slashes introduce an authority, which is empty if a slash follows, or nothing. -/
theorem reread_authority_iff (h : p.Apart) :
    p.reread.authority = p.authority ↔ Begins ['/'] more := by
  have hreread : p.reread.authority = String.ofList (takeAuthority p.path.toList).1 := by
    rw [Parts.reread, if_neg (not_spellsAuthority hauthority hpath)]
  rw [hreread, hauthority, hpath, String.ofList_eq_empty_iff]
  constructor
  · intro hnone c hc
    -- what begins the path and no authority ends it, and no path holds a mark
    have hends : endsAuthority c = true := by
      by_contra hpass
      cases more with
      | nil => cases hc
      | cons d rest =>
        cases hc
        rw [takeAuthority, List.takeWhile_cons_of_pos (by simpa using hpass)] at hnone
        cases hnone
    have hmem : c ∈ p.path.toList := by
      rw [hpath]
      simp [List.mem_of_mem_head? hc]
    have hmarks := (h.path c hmem).2
    simpa [endsAuthority, hmarks] using hends
  · intro hbegins
    rw [takeAuthority_slashes hbegins]

/-- The two slashes are put back exactly if an authority is spelled out behind them. -/
theorem reread_join_iff (hbegins : Begins ['/'] more) : p.reread.join = p.join ↔
    p.scheme ∈ authoritySchemes ∧ ∀ rest, more ≠ '/' :: '/' :: rest := by
  have hspells := not_spellsAuthority hauthority hpath
  have hreread : p.reread = { p with authority := "", path := String.ofList more } := by
    rw [Parts.reread, if_neg hspells, hpath, takeAuthority_slashes hbegins]
  have hagain : p.reread.spellsAuthority = true ↔
      p.scheme ∈ authoritySchemes ∧ ∀ rest, more ≠ '/' :: '/' :: rest := by
    rw [spellsAuthority_iff, hreread, String.toList_ofList]
    exact or_iff_right fun hsome => hsome rfl
  have hjoined : p.behindScheme =
      '/' :: '/' :: (more ++ (marked '?' p.query ++ marked '#' p.fragment)) := by
    rw [Parts.behindScheme, if_neg hspells, hpath]
    rfl
  rw [join_eq_iff p.reread_scheme, ← hagain, hjoined]
  by_cases hsome : p.reread.spellsAuthority = true
  · refine iff_of_true ?_ hsome
    rw [Parts.behindScheme, if_pos hsome, hreread]
    simp only [String.toList_ofList, rooted_eq hbegins]
    rfl
  · refine iff_of_false (fun hsame => ?_) hsome
    -- without an authority the text is two characters shorter
    rw [Parts.behindScheme, if_neg hsome, hreread, String.toList_ofList] at hsame
    have hlength := congrArg List.length hsame
    simp only [List.length_append, List.length_cons] at hlength
    omega

end Slashes

/-- **Joined parts stay what they are** exactly if they are settled. -/
theorem reread_iff_settled (h : p.Apart) :
    p.reread.authority = p.authority ∧ p.reread.join = p.join ↔ p.Settled := by
  by_cases hslashes : p.authority = "" ∧ ∃ more, p.path.toList = '/' :: '/' :: more
  · obtain ⟨hauthority, more, hpath⟩ := hslashes
    rw [settled_iff hauthority hpath, reread_authority_iff hauthority hpath h]
    constructor
    · rintro ⟨hbegins, hjoin⟩
      obtain ⟨hscheme, hmore⟩ := (reread_join_iff hauthority hpath hbegins).1 hjoin
      exact ⟨hscheme, hbegins, hmore⟩
    · rintro ⟨hscheme, hbegins, hmore⟩
      exact ⟨hbegins, (reread_join_iff hauthority hpath hbegins).2 ⟨hscheme, hmore⟩⟩
  · refine iff_of_true ?_ fun hauthority more hpath => absurd ⟨hauthority, more, hpath⟩ hslashes
    by_cases hspells : p.spellsAuthority = true
    · exact reread_of_spelled hspells
    · have hpath : ∀ more, p.path.toList ≠ '/' :: '/' :: more := by
        intro more hmore
        refine hslashes ⟨?_, more, hmore⟩
        by_contra hsome
        exact hspells (spellsAuthority_iff.2 (Or.inl hsome))
      rw [Parts.reread_of_ne hspells hpath]
      exact ⟨rfl, rfl⟩

/-- **Which texts have a canonical form**: reading the text of a URL again gives the same URL, with
the scheme, the authority and the fragment of the original text, exactly if the parts of that are
settled. -/
theorem canonical_iff {text : String} (h : parse text = .ok u) :
    ∃ p, split text = .ok p ∧ (Canonical p u ↔ p.Settled) := by
  obtain ⟨p, hsplit, hjoin⟩ := bind_eq_ok_iff.1 h
  cases hjoin
  have hproper := proper_of_split hsplit
  exact ⟨p, hsplit, (canonical_iff_reread hproper).trans (reread_iff_settled hproper.apart)⟩

/-- Five slashes become three, and stay three. -/
theorem canonical_iff_five_slashes :
    parse "http://///x/y#f" = .ok ⟨"http:///x/y#f"⟩ ∧
      ∃ p, split "http://///x/y#f" = .ok p ∧ Canonical p ⟨"http:///x/y#f"⟩ := by
  have hparse : parse "http://///x/y#f" = .ok ⟨"http:///x/y#f"⟩ := by decide +kernel
  have hsplit : split "http://///x/y#f" = .ok ⟨"http", "", "///x/y", "", "f"⟩ := by decide +kernel
  obtain ⟨p, hp, hcanonical⟩ := canonical_iff hparse
  refine ⟨hparse, p, hp, hcanonical.2 fun _ more hmore => ?_⟩
  cases hsplit.symm.trans hp
  obtain rfl : more = "/x/y".toList := (List.cons.inj (List.cons.inj hmore).2).2.symm
  refine ⟨by decide, fun c hc => ?_, fun rest hrest => ?_⟩
  · cases hc
    decide
  · cases hrest

/-- **Not every text has a canonical form**: the text that is made of four slashes has an authority
which the original did not have, and may not be split; of six slashes two are lost each time. -/
theorem gained_authority :
    (parse "http:////x/y" = .ok ⟨"http://x/y"⟩ ∧
      split "http:////x/y" = .ok ⟨"http", "", "//x/y", "", ""⟩ ∧
      split "http://x/y" = .ok ⟨"http", "x", "/y", "", ""⟩) ∧
    (parse "http:////[x" = .ok ⟨"http://[x"⟩ ∧ parse "http://[x" = .error .brackets) ∧
    (parse "http://////x" = .ok ⟨"http:////x"⟩ ∧ parse "http:////x" = .ok ⟨"http://x"⟩) ∧
    ¬ ∀ text u, parse text = .ok u → ∃ p, split text = .ok p ∧ Canonical p u := by
  have hparse : parse "http:////x/y" = .ok ⟨"http://x/y"⟩ := by decide +kernel
  have hsplit : split "http:////x/y" = .ok ⟨"http", "", "//x/y", "", ""⟩ := by decide +kernel
  have hagain : split "http://x/y" = .ok ⟨"http", "x", "/y", "", ""⟩ := by decide +kernel
  refine ⟨⟨hparse, hsplit, hagain⟩, ⟨by decide +kernel, by decide +kernel⟩,
    ⟨by decide +kernel, by decide +kernel⟩, fun hclaim => ?_⟩
  obtain ⟨p, hp, _, read, hread, _, hauthority, _⟩ := hclaim _ _ hparse
  cases hsplit.symm.trans hp
  cases hagain.symm.trans hread
  exact absurd hauthority (by decide)

end LockPrefetch.Url
