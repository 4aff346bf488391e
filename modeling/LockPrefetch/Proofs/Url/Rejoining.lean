import LockPrefetch.Failure
import LockPrefetch.Proofs.Url.Splitting

/-! # Parts that are read back

No part of a split text holds what is dropped from texts, or a mark that would end it
(`apart_of_split`), and behind an authority a path begins with a slash. What splitting the joined
text of such parts gives is known (`Parts.Proper.split_join`): the parts themselves, except that an
authority may be taken from a path that begins with two slashes, and that a path gets a slash in
front of it where an authority is spelled out. So a URL with an authority has the parts of the text
that it was read from (`parts_of_read`). -/

set_option autoImplicit false

namespace LockPrefetch.Url

variable {text scheme rest : List Char} {p : Parts}

/-! ## Parts that stand apart -/

/-- **Parts stand apart**: none holds a character that is dropped from texts, or one that would
end it. -/
structure Parts.Apart (p : Parts) : Prop where
  authority : ∀ c ∈ p.authority.toList, isKept c = true ∧ endsAuthority c = false
  path : ∀ c ∈ p.path.toList, isKept c = true ∧ c ≠ '?' ∧ c ≠ '#'
  query : ∀ c ∈ p.query.toList, isKept c = true ∧ c ≠ '#'
  fragment : ∀ c ∈ p.fragment.toList, isKept c = true

theorem isKept_of_mem_clean {c : Char} (h : c ∈ clean text) : isKept c = true :=
  (List.mem_filter.1 h).2

/-- A text begins with a scheme, or none is taken from it. -/
theorem takeScheme_cases (text : List Char) : takeScheme text = ([], text) ∨
    ∃ spelled rest, SpellsScheme spelled ∧ text = spelled ++ ':' :: rest := by
  unfold takeScheme
  split
  · rename_i first more rest hcut
    split
    · rename_i hspells
      rw [Bool.and_eq_true] at hspells
      exact Or.inr ⟨_, rest, ⟨first, more, rfl, hspells.1, hspells.2⟩, (Text.eq_of_cut_some hcut).1⟩
    · exact Or.inl rfl
  · exact Or.inl rfl

theorem takeScheme_subset (text : List Char) : (takeScheme text).2 ⊆ text := by
  rcases takeScheme_cases text with h | ⟨spelled, rest, hspells, rfl⟩
  · rw [h]
    exact List.Subset.refl _
  · rw [takeScheme_append hspells]
    exact fun c hc => List.mem_append_right _ (List.mem_cons_of_mem _ hc)

theorem apart_partsBehind (scheme : List Char) (hkept : ∀ c ∈ rest, isKept c = true) :
    (partsBehind scheme rest).Apart := by
  obtain ⟨hauthority, hbehind⟩ := subset_takeAuthority rest
  have hbefore : (takeAuthority rest).2.takeWhile (· != '#') ⊆ (takeAuthority rest).2 :=
    List.takeWhile_subset _
  constructor
  · intro c hc
    simp only [partsBehind, String.toList_ofList] at hc
    exact ⟨hkept c (hauthority hc), not_ends_of_mem hc⟩
  · intro c hc
    rw [path_partsBehind] at hc
    refine ⟨hkept c (hbehind (pathOf_subset _ hc)), ?_, ?_⟩
    · rintro rfl
      exact Text.not_mem_takeWhile _ _ hc
    · rintro rfl
      exact Text.not_mem_takeWhile _ _ (List.takeWhile_subset _ hc)
  · intro c hc
    simp only [partsBehind, String.toList_ofList, Text.cut_fst] at hc
    have hquery := Text.cut_snd_subset _ _ hc
    refine ⟨hkept c (hbehind (hbefore hquery)), ?_⟩
    rintro rfl
    exact Text.not_mem_takeWhile _ _ hquery
  · intro c hc
    simp only [partsBehind, String.toList_ofList] at hc
    exact hkept c (hbehind (Text.cut_snd_subset _ _ hc))

/-- What was split stands apart behind its scheme. -/
theorem eq_of_split {text : String} (h : split text = .ok p) :
    ∃ scheme rest, takeScheme (clean text.toList) = (scheme, rest) ∧
      (∀ c ∈ rest, isKept c = true) ∧ checkAuthority (takeAuthority rest).1 = .ok () ∧
      p = partsBehind scheme rest := by
  cases htake : takeScheme (clean text.toList) with
  | mk scheme rest =>
    rw [split_eq htake] at h
    obtain ⟨_, hcheck, rfl⟩ := map_eq_ok_iff.1 h
    have hsubset := takeScheme_subset (clean text.toList)
    rw [htake] at hsubset
    exact ⟨scheme, rest, rfl, fun c hc => isKept_of_mem_clean (hsubset hc), hcheck, rfl⟩

/-- **The parts of a split text stand apart.** -/
theorem apart_of_split {text : String} (h : split text = .ok p) : p.Apart := by
  obtain ⟨scheme, rest, _, hkept, _, rfl⟩ := eq_of_split h
  exact apart_partsBehind scheme hkept

/-- Behind an authority a path begins with a slash. -/
theorem begins_path (h : (partsBehind scheme rest).authority ≠ "") :
    Begins ['/'] (partsBehind scheme rest).path.toList := by
  have hends : Begins enders (takeAuthority rest).2 := by
    unfold takeAuthority
    split
    · exact begins_behind _
    · rename_i hslashes
      refine absurd ?_ h
      simp only [partsBehind, takeAuthority_of_ne fun more hmore => hslashes more hmore]
  rw [path_partsBehind]
  intro c hc
  obtain ⟨more, hmore, _⟩ := exists_append_pathOf (takeAuthority rest).2
  have hpath : c ∈ pathOf (takeAuthority rest).2 := List.mem_of_mem_head? hc
  have hfirst : (takeAuthority rest).2.head? = some c := by
    rw [hmore, List.head?_append, hc]
    rfl
  -- what ends an authority is a slash or a mark, and no path holds a mark
  have hender := hends c hfirst
  simp only [enders, List.mem_cons, List.not_mem_nil, or_false] at hender
  rcases hender with rfl | rfl | rfl
  · exact List.mem_singleton_self _
  · exact absurd hpath (Text.not_mem_takeWhile _ _)
  · exact absurd (List.takeWhile_subset _ hpath) (Text.not_mem_takeWhile _ _)

/-! ## Parts behind an authority -/

section Behind

variable {authority path query : List Char}

/-- Without marks all that stands behind an authority is the path. -/
theorem partsBehind_path (scheme : List Char)
    (hauthority : ∀ c ∈ authority, endsAuthority c = false)
    (hpath : Begins enders path) (hhash : '#' ∉ path) (hquestion : '?' ∉ path) :
    partsBehind scheme ('/' :: '/' :: (authority ++ path)) =
      ⟨String.ofList scheme, String.ofList authority, String.ofList path, "", ""⟩ := by
  rw [partsBehind, takeAuthority_spelled hauthority hpath]
  simp only [Text.cut_of_not_mem hhash, Text.cut_of_not_mem hquestion]
  rfl

/-- What stands behind a question mark is the query. -/
theorem partsBehind_query (scheme : List Char)
    (hauthority : ∀ c ∈ authority, endsAuthority c = false)
    (hpath : Begins enders (path ++ '?' :: query)) (hhash : '#' ∉ path ++ '?' :: query)
    (hquestion : '?' ∉ path) :
    partsBehind scheme ('/' :: '/' :: (authority ++ (path ++ '?' :: query))) =
      ⟨String.ofList scheme, String.ofList authority, String.ofList path, String.ofList query,
        ""⟩ := by
  rw [partsBehind, takeAuthority_spelled hauthority hpath]
  simp only [Text.cut_of_not_mem hhash, Text.cut_append hquestion]
  rfl

end Behind

/-! ## Bare texts -/

theorem plain_of_ender {c : Char} (h : c ∈ enders) : isSchemeChar c = false ∧ c ≠ ':' := by
  simp only [enders, List.mem_cons, List.not_mem_nil, or_false] at h
  rcases h with rfl | rfl | rfl <;> decide

theorem visible_of_ender {c : Char} (h : c ∈ enders) : 0x20 < c.toNat := by
  simp only [enders, List.mem_cons, List.not_mem_nil, or_false] at h
  rcases h with rfl | rfl | rfl <;> decide

/-- **A bare text** begins neither with a scheme nor with a blank or a control. -/
structure Bare (text : List Char) : Prop where
  noScheme : ∀ spelled rest, SpellsScheme spelled → text ≠ spelled ++ ':' :: rest
  visible : ∀ c, text.head? = some c → 0x20 < c.toNat

namespace Bare

variable {marks : List Char}

theorem takeScheme_eq (h : Bare text) : takeScheme text = ([], text) := by
  rcases takeScheme_cases text with hnone | ⟨spelled, rest, hspells, htext⟩
  · exact hnone
  · exact absurd htext (h.noScheme spelled rest hspells)

theorem clean_eq (h : Bare text) (hkept : ∀ c ∈ text, isKept c = true) : clean text = text := by
  have hfirst : text.dropWhile (fun c => c.toNat ≤ 0x20) = text := by
    cases text with
    | nil => rfl
    | cons c more =>
      have hvisible := h.visible c rfl
      exact List.dropWhile_cons_of_neg (by simpa using hvisible)
  show (text.dropWhile fun c => c.toNat ≤ 0x20).filter isKept = text
  rw [hfirst, List.filter_eq_self.2 hkept]

theorem of_append (h : Bare (text ++ marks)) : Bare text := by
  constructor
  · intro spelled rest hspells htext
    exact h.noScheme spelled (rest ++ marks) hspells (by simp [htext])
  · intro c hc
    exact h.visible c (by rw [List.head?_append, hc]; rfl)

/-- No scheme reaches into what ends an authority. -/
theorem append (h : Bare text) (hmarks : Begins enders marks) : Bare (text ++ marks) := by
  constructor
  · intro spelled rest hspells htext
    rcases List.append_eq_append_iff.1 htext with ⟨more, rfl, hmore⟩ | ⟨more, rfl, hmore⟩
    · cases more with
      | nil => exact (plain_of_ender (hmarks ':' (by rw [hmore]; rfl))).2 rfl
      | cons c more =>
        have hender := plain_of_ender (hmarks c (by rw [hmore]; rfl))
        rw [hspells.mem (List.mem_append_right _ List.mem_cons_self)] at hender
        cases hender.1
    · cases more with
      | nil =>
        rw [List.nil_append] at hmore
        exact (plain_of_ender (hmarks ':' (by rw [← hmore]; rfl))).2 rfl
      | cons c more =>
        obtain ⟨rfl, -⟩ := List.cons.inj hmore
        exact h.noScheme spelled more hspells rfl
  · intro c hc
    cases text with
    | nil => exact visible_of_ender (hmarks c hc)
    | cons d more => exact h.visible c hc

end Bare

theorem bare_of_begins (h : Begins enders text) : Bare text := by
  constructor
  · rintro spelled rest ⟨first, more, rfl, halpha, _⟩ rfl
    have hender := plain_of_ender (h first rfl)
    rw [isSchemeChar_of_isAlpha halpha] at hender
    cases hender.1
  · exact fun c hc => visible_of_ender (h c hc)

/-- A cleaned text from which no scheme is taken is bare. -/
theorem bare_clean (h : takeScheme (clean text) = ([], clean text)) : Bare (clean text) := by
  constructor
  · intro spelled rest hspells htext
    rw [htext, takeScheme_append hspells] at h
    obtain ⟨first, more, rfl, _⟩ := hspells
    cases (Prod.mk.inj h).1
  · intro c hc
    have hstop := List.head?_dropWhile_not (fun c => decide (c.toNat ≤ 0x20)) text
    cases hdrop : text.dropWhile (fun c => decide (c.toNat ≤ 0x20)) with
    | nil =>
      rw [clean, hdrop] at hc
      cases hc
    | cons d more =>
      rw [hdrop] at hstop
      have hvisible : 0x20 < d.toNat := by simpa using hstop
      have hkept := isKept_of_visible hvisible
      have hclean : clean text = d :: more.filter isKept := by
        show (text.dropWhile fun c => decide (c.toNat ≤ 0x20)).filter isKept = _
        rw [hdrop, List.filter_cons_of_pos hkept]
      rw [hclean] at hc
      cases hc
      exact hvisible

theorem bare_behind (h : Bare rest) : Bare (takeAuthority rest).2 := by
  unfold takeAuthority
  split
  · exact bare_of_begins (begins_behind _)
  · exact h

/-! ## Parts as they are read -/

/-- **Proper parts**, as splitting gives them: they stand apart, their scheme is in lower case or
there is none, their authority is accepted, and behind an authority the path begins with a
slash. -/
structure Parts.Proper (p : Parts) : Prop where
  scheme : (p.scheme = "" ∧ Bare p.path.toList) ∨
    (SpellsScheme p.scheme.toList ∧ p.scheme.toList.map Char.toLower = p.scheme.toList)
  accepted : checkAuthority p.authority.toList = .ok ()
  path : p.authority ≠ "" → Begins ['/'] p.path.toList
  apart : p.Apart

theorem proper_of_split {text : String} (h : split text = .ok p) : p.Proper := by
  obtain ⟨scheme, rest, htake, _, hcheck, rfl⟩ := eq_of_split h
  refine ⟨?_, ?_, begins_path, apart_of_split h⟩
  · rcases takeScheme_cases (clean text.toList) with hnone | ⟨spelled, behind, hspells, htext⟩
    · obtain ⟨rfl, rfl⟩ := Prod.mk.inj (hnone.symm.trans htake)
      obtain ⟨more, hmore, _⟩ := exists_append_pathOf (takeAuthority (clean text.toList)).2
      have hbare := bare_behind (bare_clean hnone)
      rw [hmore] at hbare
      exact Or.inl ⟨rfl, by rw [path_partsBehind]; exact hbare.of_append⟩
    · rw [htext, takeScheme_append hspells] at htake
      obtain ⟨rfl, rfl⟩ := Prod.mk.inj htake
      have hname : (partsBehind (spelled.map Char.toLower) behind).scheme.toList =
          spelled.map Char.toLower := String.toList_ofList
      rw [hname, List.map_map]
      exact Or.inr ⟨hspells.toLower, List.map_congr_left fun c _ => toLower_toLower c⟩
  · simpa only [partsBehind, String.toList_ofList] using hcheck

/-- **What is read of joined parts.** Behind an authority that is spelled out the path begins with
a slash; where none is, the path is taken for an authority and a path. -/
def Parts.reread (p : Parts) : Parts :=
  if p.spellsAuthority then { p with path := String.ofList (rooted p.path.toList) }
  else
    { p with
      authority := String.ofList (takeAuthority p.path.toList).1
      path := String.ofList (takeAuthority p.path.toList).2 }

@[simp]
theorem Parts.reread_scheme (p : Parts) : p.reread.scheme = p.scheme := by
  unfold Parts.reread
  split <;> rfl

@[simp]
theorem Parts.reread_query (p : Parts) : p.reread.query = p.query := by
  unfold Parts.reread
  split <;> rfl

@[simp]
theorem Parts.reread_fragment (p : Parts) : p.reread.fragment = p.fragment := by
  unfold Parts.reread
  split <;> rfl

/-- Without an authority a path is read back unless it begins with two slashes. -/
theorem Parts.reread_of_ne (hspells : ¬ p.spellsAuthority = true)
    (hpath : ∀ more, p.path.toList ≠ '/' :: '/' :: more) : p.reread = p := by
  have hauthority : p.authority = "" := by
    by_contra hsome
    exact hspells (spellsAuthority_iff.2 (Or.inl hsome))
  rw [Parts.reread, if_neg hspells, takeAuthority_of_ne hpath, String.ofList_toList,
    String.ofList_nil, ← hauthority]

theorem rooted_eq {path : List Char} (h : Begins ['/'] path) : rooted path = path := by
  cases path with
  | nil => rfl
  | cons c more => exact if_pos (List.mem_singleton.1 (h c rfl))

theorem mem_rooted {path : List Char} {c : Char} (h : c ∈ rooted path) : c = '/' ∨ c ∈ path := by
  cases path with
  | nil => cases h
  | cons d more =>
    by_cases hslash : d = '/'
    · rw [rooted, if_pos hslash] at h
      exact Or.inr h
    · rw [rooted, if_neg hslash] at h
      exact List.mem_cons.1 h

/-- A mark and its part are cut off a text without that mark. -/
theorem cut_append_marked {mark : Char} {before : List Char} (h : mark ∉ before) (part : String) :
    (Text.cut mark (before ++ marked mark part)).1 = before ∧
      (Text.cut mark (before ++ marked mark part)).2.getD [] = part.toList := by
  unfold marked
  split
  · rename_i hempty
    rw [List.append_nil, Text.cut_of_not_mem h, hempty]
    exact ⟨rfl, rfl⟩
  · rw [Text.cut_append h]
    exact ⟨rfl, rfl⟩

theorem mem_marked {mark c : Char} {part : String} (h : c ∈ marked mark part) :
    c = mark ∨ c ∈ part.toList := by
  unfold marked at h
  split at h
  · cases h
  · exact List.mem_cons.1 h

namespace Parts.Apart

/-- Nothing is dropped from what is joined. -/
theorem isKept_of_mem (h : p.Apart) {c : Char} (hc : c ∈ p.behindScheme) : isKept c = true := by
  have hplace : ∀ d ∈ (if p.spellsAuthority then '/' :: '/' :: (p.authority.toList ++
      rooted p.path.toList) else p.path.toList), isKept d = true := by
    intro d hd
    split at hd
    · simp only [List.mem_cons, List.mem_append] at hd
      rcases hd with rfl | rfl | hd | hd
      · rfl
      · rfl
      · exact (h.authority d hd).1
      · rcases mem_rooted hd with rfl | hd
        · rfl
        · exact (h.path d hd).1
    · exact (h.path d hd).1
  rw [Parts.behindScheme, List.mem_append, List.mem_append] at hc
  rcases hc with hc | hc | hc
  · exact hplace c hc
  · rcases mem_marked hc with rfl | hc
    · rfl
    · exact (h.query c hc).1
  · rcases mem_marked hc with rfl | hc
    · rfl
    · exact h.fragment c hc

theorem reread (h : p.Apart) : p.reread.Apart := by
  unfold Parts.reread
  split
  · refine ⟨h.authority, fun c hc => ?_, h.query, h.fragment⟩
    rw [String.toList_ofList] at hc
    rcases mem_rooted hc with rfl | hc
    · decide
    · exact h.path c hc
  · obtain ⟨hauthority, hbehind⟩ := subset_takeAuthority p.path.toList
    refine ⟨fun c hc => ?_, fun c hc => ?_, h.query, h.fragment⟩
    · rw [String.toList_ofList] at hc
      exact ⟨(h.path c (hauthority hc)).1, not_ends_of_mem hc⟩
    · rw [String.toList_ofList] at hc
      exact h.path c (hbehind hc)

/-- Authority and path are taken from what is joined. -/
theorem takeAuthority_behindScheme (h : p.Apart) :
    takeAuthority p.behindScheme = (p.reread.authority.toList,
      p.reread.path.toList ++ (marked '?' p.query ++ marked '#' p.fragment)) := by
  unfold Parts.behindScheme Parts.reread
  split
  · rw [List.cons_append, List.cons_append, List.append_assoc, String.toList_ofList]
    exact takeAuthority_spelled (fun c hc => (h.authority c hc).2)
      (((begins_rooted _).mono (by decide)).append ((begins_marks p).mono (by decide)))
  · rw [takeAuthority_append_marks (begins_marks p)]
    simp only [String.toList_ofList]

/-- The parts behind the scheme are read of what is joined. -/
theorem partsBehind_behindScheme (h : p.Apart) :
    partsBehind p.scheme.toList p.behindScheme = p.reread := by
  have hquestion : '?' ∉ p.reread.path.toList := fun hmem => (h.reread.path _ hmem).2.1 rfl
  have hhash : '#' ∉ p.reread.path.toList ++ marked '?' p.query := by
    intro hmem
    rcases List.mem_append.1 hmem with hmem | hmem
    · exact (h.reread.path _ hmem).2.2 rfl
    · rcases mem_marked hmem with hmark | hmem
      · cases hmark
      · exact (h.query _ hmem).2 rfl
  obtain ⟨hbefore, hfragment⟩ := cut_append_marked hhash p.fragment
  obtain ⟨hpath, hquery⟩ := cut_append_marked hquestion p.query
  -- cut at the first hash mark, and what is before it at the first question mark
  rw [partsBehind, h.takeAuthority_behindScheme]
  simp only [← List.append_assoc, hbefore, hfragment, hpath, hquery, String.ofList_toList]
  rw [← p.reread_scheme, ← p.reread_query, ← p.reread_fragment]

end Parts.Apart

/-! ## Joined parts -/

theorem toList_join_of_empty (h : p.scheme = "") : p.join.toList = p.behindScheme := by
  simp only [Parts.join, Parts.behindScheme, h, if_true, String.toList_ofList, List.append_assoc,
    List.nil_append]

/-- An authority is joined to a path that begins with a slash as they are. -/
theorem behindScheme_of_named (hnamed : p.authority ≠ "") (hpath : Begins ['/'] p.path.toList) :
    p.behindScheme = '/' :: '/' :: (p.authority.toList ++ (p.path.toList ++
      (marked '?' p.query ++ marked '#' p.fragment))) := by
  rw [Parts.behindScheme, if_pos (spellsAuthority_iff.2 (Or.inl hnamed)), rooted_eq hpath,
    List.cons_append, List.cons_append, List.append_assoc]

/-- A path from which no scheme is taken does not get one by what is joined to it. -/
theorem bare_behindScheme (h : Bare p.path.toList) : Bare p.behindScheme := by
  unfold Parts.behindScheme
  split
  · refine bare_of_begins fun c hc => ?_
    cases hc
    decide
  · exact h.append ((begins_marks p).mono (by decide))

namespace Parts.Proper

/-- The joined text begins with the same scheme, and what is joined stands behind it. -/
theorem takeScheme_join (h : p.Proper) :
    takeScheme (clean p.join.toList) = (p.scheme.toList, p.behindScheme) := by
  have hkept : ∀ c ∈ p.behindScheme, isKept c = true := fun c hc => h.apart.isKept_of_mem hc
  rcases h.scheme with ⟨hempty, hpath⟩ | ⟨hspells, hlower⟩
  · have hbare := bare_behindScheme hpath
    rw [toList_join_of_empty hempty, hbare.clean_eq hkept, hbare.takeScheme_eq, hempty]
    rfl
  · rw [toList_join hspells.ne_empty, clean_append hspells, takeScheme_append hspells,
      List.filter_eq_self.2 hkept, hlower]

/-- **Joined parts are read back** as `reread` says, if what is then the authority is accepted. -/
theorem split_join (h : p.Proper) :
    split p.join = (checkAuthority p.reread.authority.toList).map fun _ => p.reread := by
  rw [split_eq h.takeScheme_join, h.apart.takeAuthority_behindScheme,
    h.apart.partsBehind_behindScheme]

/-- **Parts that are read back as they are** are what splitting their joined text gives. -/
theorem split_join_of_reread (h : p.Proper) (hsame : p.reread = p) : split p.join = .ok p := by
  rw [h.split_join, hsame, h.accepted]
  rfl

end Parts.Proper

/-! ## Parts behind an authority of their own -/

/-- **Parts that can be read back**: they stand apart, their scheme is none or one in lower case,
their authority is accepted and not empty, and their path begins with a slash or is empty. -/
structure Parts.Legible (p : Parts) : Prop where
  scheme : p.scheme = "" ∨
    (SpellsScheme p.scheme.toList ∧ p.scheme.toList.map Char.toLower = p.scheme.toList)
  named : p.authority ≠ ""
  accepted : checkAuthority p.authority.toList = .ok ()
  path : Begins ['/'] p.path.toList
  apart : p.Apart

theorem legible_of_split {text : String} (h : split text = .ok p) (hauthority : p.authority ≠ "") :
    p.Legible := by
  have hproper := proper_of_split h
  exact ⟨hproper.scheme.imp_left And.left, hauthority, hproper.accepted, hproper.path hauthority,
    hproper.apart⟩

namespace Parts.Legible

theorem proper (h : p.Legible) : p.Proper := by
  have hbare : Bare p.path.toList := bare_of_begins (h.path.mono (by decide))
  exact ⟨h.scheme.imp_left fun hempty => ⟨hempty, hbare⟩, h.accepted, fun _ => h.path, h.apart⟩

theorem reread_eq (h : p.Legible) : p.reread = p := by
  rw [Parts.reread, if_pos (spellsAuthority_iff.2 (Or.inl h.named)), rooted_eq h.path,
    String.ofList_toList]

end Parts.Legible

/-- **Legible parts are read back** from their joined text. -/
theorem split_join (h : p.Legible) : split p.join = .ok p :=
  h.proper.split_join_of_reread h.reread_eq

theorem parse_of_split {text : String} (h : split text = .ok p) : parse text = .ok ⟨p.join⟩ := by
  rw [parse, h]
  rfl

/-- **A URL with an authority has the parts of the text** that it was read from. -/
theorem parts_of_read {text : String} (hsplit : split text = .ok p)
    (hauthority : p.authority ≠ "") :
    ∃ u, parse text = .ok u ∧ u.parts = .ok p :=
  ⟨⟨p.join⟩, parse_of_split hsplit, split_join (legible_of_split hsplit hauthority)⟩

end LockPrefetch.Url
