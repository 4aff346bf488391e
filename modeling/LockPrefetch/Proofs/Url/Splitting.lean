import LockPrefetch.Specifier
import Mathlib.Data.List.TakeWhile

/-! # Splitting joined text again

The parts of a URL are read by splitting its text, which is the joined parts of another text. A
text that begins with a scheme can be split exactly if what follows two slashes behind the colon,
up to the next slash, `?` or `#`, is an authority that is accepted (`split_eq`). The joined text
has the authority of the original, with one exception (`parts_of_tagged`): of

    scheme:////hidden/path

the authority is empty and the path is `//hidden/path`, and joined this is the text
`scheme://hidden/path`, whose authority is the one that was hidden. So the text of a URL cannot be
split exactly if it was made from such a text and `hidden` is not accepted. -/

set_option autoImplicit false

namespace LockPrefetch.Url

variable {scheme spelled rest text authority : List Char} {fault : Malformed}

/-! ## Schemes -/

/-- **The spelling of a scheme**: a letter, then letters, digits, `+`, `.` and `-`. -/
def SpellsScheme (text : List Char) : Prop :=
  ∃ first more, text = first :: more ∧ first.isAlpha = true ∧ more.all isSchemeChar = true

theorem isAlpha_iff {c : Char} : c.isAlpha = true ↔
    (65 ≤ c.toNat ∧ c.toNat ≤ 90) ∨ (97 ≤ c.toNat ∧ c.toNat ≤ 122) := by
  have hupper : c.isUpper = true ↔ 65 ≤ c.toNat ∧ c.toNat ≤ 90 := by
    show decide (c.val ≥ 'A'.val ∧ c.val ≤ 'Z'.val) = true ↔ _
    rw [decide_eq_true_iff]
    exact and_congr UInt32.le_iff_toNat_le UInt32.le_iff_toNat_le
  have hlower : c.isLower = true ↔ 97 ≤ c.toNat ∧ c.toNat ≤ 122 := by
    show (decide (c.val ≥ 'a'.val) && decide (c.val ≤ 'z'.val)) = true ↔ _
    rw [Bool.and_eq_true, decide_eq_true_iff, decide_eq_true_iff]
    exact and_congr UInt32.le_iff_toNat_le UInt32.le_iff_toNat_le
  show (c.isUpper || c.isLower) = true ↔ _
  rw [Bool.or_eq_true, hupper, hlower]

theorem isSchemeChar_of_isAlpha {c : Char} (h : c.isAlpha = true) : isSchemeChar c = true := by
  simp [isSchemeChar, Char.isAlphanum, h]

theorem SpellsScheme.mem (h : SpellsScheme text) {c : Char} (hc : c ∈ text) :
    isSchemeChar c = true := by
  obtain ⟨first, more, rfl, hfirst, hmore⟩ := h
  rcases List.mem_cons.1 hc with rfl | hc
  · exact isSchemeChar_of_isAlpha hfirst
  · exact List.all_eq_true.1 hmore c hc

theorem SpellsScheme.ne_empty {name : String} (h : SpellsScheme name.toList) : name ≠ "" := by
  rintro rfl
  obtain ⟨first, more, hlist, _⟩ := h
  cases hlist

/-- A character of a scheme is visible and no colon. -/
theorem plain_of_isSchemeChar {c : Char} (h : isSchemeChar c = true) :
    0x20 < c.toNat ∧ c ≠ ':' := by
  have hother : ∀ d : Char, c = d → 0x20 < d.toNat → d ≠ ':' → 0x20 < c.toNat ∧ c ≠ ':' := by
    rintro d rfl hlarge hcolon
    exact ⟨hlarge, hcolon⟩
  simp only [isSchemeChar, Char.isAlphanum, Bool.or_eq_true, beq_iff_eq] at h
  rcases h with ((halnum | hplus) | hdot) | hdash
  · have hrange : (65 ≤ c.toNat ∧ c.toNat ≤ 90) ∨ (97 ≤ c.toNat ∧ c.toNat ≤ 122) ∨
        (48 ≤ c.toNat ∧ c.toNat ≤ 57) := by
      rw [isAlpha_iff] at halnum
      simpa [Char.isDigit, UInt32.le_iff_toNat_le, or_assoc] using halnum
    refine ⟨by omega, ?_⟩
    rintro rfl
    have hcolon : (':' : Char).toNat = 58 := rfl
    omega
  · exact hother _ hplus (by decide) (by decide)
  · exact hother _ hdot (by decide) (by decide)
  · exact hother _ hdash (by decide) (by decide)

/-- A capital becomes a small letter. -/
theorem toNat_toLower {c : Char} (h : 65 ≤ c.toNat ∧ c.toNat ≤ 90) :
    c.toLower.toNat = c.toNat + 32 := by
  have hcapital : c.val ≥ 'A'.val ∧ c.val ≤ 'Z'.val :=
    ⟨UInt32.le_iff_toNat_le.2 h.1, UInt32.le_iff_toNat_le.2 h.2⟩
  have hval : (c.val + 32).toNat = c.toNat + 32 := by
    rw [UInt32.toNat_add]
    exact Nat.mod_eq_of_lt (show c.toNat + 32 < 2 ^ 32 by omega)
  unfold Char.toLower
  rw [dif_pos hcapital]
  exact hval

/-- What is no capital stays as it is. -/
theorem toLower_eq_self {c : Char} (h : ¬ (65 ≤ c.toNat ∧ c.toNat ≤ 90)) : c.toLower = c := by
  unfold Char.toLower
  rw [dif_neg]
  intro hcapital
  exact h ⟨UInt32.le_iff_toNat_le.1 hcapital.1, UInt32.le_iff_toNat_le.1 hcapital.2⟩

theorem toLower_toLower (c : Char) : c.toLower.toLower = c.toLower := by
  by_cases hcapital : 65 ≤ c.toNat ∧ c.toNat ≤ 90
  · have hsmall := toNat_toLower hcapital
    exact toLower_eq_self (by omega)
  · rw [toLower_eq_self hcapital, toLower_eq_self hcapital]

/-- Letters stay letters, and nothing else becomes one. -/
theorem isAlpha_toLower (c : Char) : c.toLower.isAlpha = c.isAlpha := by
  by_cases hcapital : 65 ≤ c.toNat ∧ c.toNat ≤ 90
  · have hsmall := toNat_toLower hcapital
    rw [isAlpha_iff.2 (Or.inl hcapital), isAlpha_iff.2 (Or.inr (by omega))]
  · rw [toLower_eq_self hcapital]

theorem isSchemeChar_toLower (c : Char) : isSchemeChar c.toLower = isSchemeChar c := by
  by_cases hcapital : 65 ≤ c.toNat ∧ c.toNat ≤ 90
  · have halpha : c.isAlpha = true := isAlpha_iff.2 (Or.inl hcapital)
    rw [isSchemeChar_of_isAlpha halpha, isSchemeChar_of_isAlpha (by rwa [isAlpha_toLower])]
  · rw [toLower_eq_self hcapital]

/-- Whether a text spells a scheme does not depend on its capitals. -/
theorem spellsScheme_toLower : SpellsScheme (text.map Char.toLower) ↔ SpellsScheme text := by
  cases text with
  | nil => rfl
  | cons first more =>
    have hchars : (more.map Char.toLower).all isSchemeChar = more.all isSchemeChar := by
      rw [List.all_map]
      exact congrArg more.all (funext isSchemeChar_toLower)
    simp only [SpellsScheme, List.map_cons, List.cons.injEq, exists_and_left, and_assoc,
      exists_eq_left', isAlpha_toLower, hchars]

theorem SpellsScheme.toLower (h : SpellsScheme text) : SpellsScheme (text.map Char.toLower) :=
  spellsScheme_toLower.2 h

theorem takeScheme_append (h : SpellsScheme spelled) (rest : List Char) :
    takeScheme (spelled ++ ':' :: rest) = (spelled.map Char.toLower, rest) := by
  have hcolon : ':' ∉ spelled := fun hmem => (plain_of_isSchemeChar (h.mem hmem)).2 rfl
  obtain ⟨first, more, rfl, hfirst, hmore⟩ := h
  unfold takeScheme
  rw [Text.cut_append hcolon]
  simp only [hfirst, hmore, Bool.and_self, if_true]

/-! ## Cleaning -/

/-- What is not dropped within a text. -/
def isKept (c : Char) : Bool := c != '\t' && c != '\r' && c != '\n'

theorem isKept_of_visible {c : Char} (h : 0x20 < c.toNat) : isKept c = true := by
  have hne : ∀ d : Char, d.toNat ≤ 0x20 → c ≠ d := by
    rintro d hd rfl
    omega
  simp only [isKept, bne_iff_ne, Bool.and_eq_true]
  exact ⟨⟨hne _ (by decide), hne _ (by decide)⟩, hne _ (by decide)⟩

/-- Nothing is dropped from a scheme, and no blanks come before it. -/
theorem clean_append (h : SpellsScheme spelled) (rest : List Char) :
    clean (spelled ++ ':' :: rest) = spelled ++ ':' :: rest.filter isKept := by
  have hkept : spelled.filter isKept = spelled :=
    List.filter_eq_self.2 fun c hc => isKept_of_visible (plain_of_isSchemeChar (h.mem hc)).1
  have hfirst : (spelled ++ ':' :: rest).dropWhile (fun c => c.toNat ≤ 0x20) =
      spelled ++ ':' :: rest := by
    obtain ⟨first, more, rfl, halpha, _⟩ := h
    have hvisible := (plain_of_isSchemeChar (isSchemeChar_of_isAlpha halpha)).1
    rw [List.cons_append, List.dropWhile_cons_of_neg (by simpa using hvisible)]
  show ((spelled ++ ':' :: rest).dropWhile fun c => c.toNat ≤ 0x20).filter isKept = _
  rw [hfirst, List.filter_append, hkept, List.filter_cons_of_pos (by decide)]

theorem takeScheme_clean (h : SpellsScheme spelled) (rest : List Char) :
    takeScheme (clean (spelled ++ ':' :: rest)) =
      (spelled.map Char.toLower, rest.filter isKept) := by
  rw [clean_append h, takeScheme_append h]

/-! ## Authorities -/

/-- Accepts an authority. -/
def checkAuthority (authority : List Char) : Except Malformed Unit := do
  checkBrackets authority
  checkLookalikes authority

/-- The parts behind a scheme, whether their authority is accepted or not. -/
def partsBehind (scheme rest : List Char) : Parts :=
  let (authority, behind) := takeAuthority rest
  let (before, fragment) := Text.cut '#' behind
  let (path, query) := Text.cut '?' before
  { scheme := String.ofList scheme
    authority := String.ofList authority
    path := String.ofList path
    query := String.ofList (query.getD [])
    fragment := String.ofList (fragment.getD []) }

/-- **A text is split** exactly if its authority is accepted. -/
theorem split_eq {text : String} (h : takeScheme (clean text.toList) = (scheme, rest)) :
    split text =
      (checkAuthority (takeAuthority rest).1).map fun _ => partsBehind scheme rest := by
  unfold split checkAuthority
  rw [h]
  simp only [bind, Except.bind]
  cases checkBrackets (takeAuthority rest).1 with
  | error fault => rfl
  | ok _ =>
    cases checkLookalikes (takeAuthority rest).1 with
    | error fault => rfl
    | ok _ => rfl

/-- What is read of a text depends on its scheme and on what stands behind it. -/
theorem split_congr {text other : String}
    (h : takeScheme (clean other.toList) = takeScheme (clean text.toList)) :
    split other = split text := by
  cases htake : takeScheme (clean text.toList) with
  | mk scheme rest => rw [split_eq htake, split_eq (h.trans htake)]

/-- **A text begins with one of some characters**, if with any. -/
def Begins (firsts text : List Char) : Prop := ∀ c, text.head? = some c → c ∈ firsts

theorem Begins.mono {firsts more : List Char} (h : Begins firsts text) (hmore : firsts ⊆ more) :
    Begins more text := fun c hc => hmore (h c hc)

theorem Begins.append {firsts more : List Char} (h : Begins firsts text)
    (hmore : Begins firsts more) : Begins firsts (text ++ more) := by
  cases text with
  | nil => exact hmore
  | cons c rest => exact h

/-- What ends an authority. -/
def enders : List Char := ['/', '?', '#']

theorem endsAuthority_iff {c : Char} : endsAuthority c = true ↔ c ∈ enders := by
  simp [endsAuthority, enders, or_assoc]

theorem Begins.filter {firsts : List Char} (h : Begins firsts text) (hends : firsts ⊆ enders) :
    Begins firsts (text.filter isKept) := by
  cases text with
  | nil => nofun
  | cons c more =>
    have hkept : isKept c = true := by
      have hmem := hends (h c rfl)
      simp only [enders, List.mem_cons, List.not_mem_nil, or_false] at hmem
      rcases hmem with rfl | rfl | rfl <;> rfl
    rw [List.filter_cons_of_pos hkept]
    exact h

/-- What stands behind an authority begins with what ends it. -/
theorem begins_behind (text : List Char) : Begins enders (text.dropWhile (!endsAuthority ·)) := by
  intro c hc
  have hstop := List.head?_dropWhile_not (!endsAuthority ·) text
  rw [hc] at hstop
  exact endsAuthority_iff.1 (by simpa using hstop)

/-- What stands behind does not lengthen an authority. -/
theorem takeWhile_append_ended (h : Begins enders rest) (text : List Char) :
    (text ++ rest).takeWhile (!endsAuthority ·) = text.takeWhile (!endsAuthority ·) := by
  induction text with
  | nil =>
    cases rest with
    | nil => rfl
    | cons c more => simp [endsAuthority_iff.2 (h c rfl)]
  | cons c text ih => rw [List.cons_append, List.takeWhile_cons, List.takeWhile_cons, ih]

/-- What stands behind stays behind an authority. -/
theorem dropWhile_append_ended (h : Begins enders rest) (text : List Char) :
    (text ++ rest).dropWhile (!endsAuthority ·) = text.dropWhile (!endsAuthority ·) ++ rest := by
  induction text with
  | nil =>
    cases rest with
    | nil => rfl
    | cons c more => simp [endsAuthority_iff.2 (h c rfl)]
  | cons c text ih =>
    rw [List.cons_append, List.dropWhile_cons, List.dropWhile_cons, ih]
    split <;> rfl

/-- An authority between two slashes and what ends it. -/
theorem takeAuthority_spelled (hauthority : ∀ c ∈ authority, endsAuthority c = false)
    (hrest : Begins enders rest) :
    takeAuthority ('/' :: '/' :: (authority ++ rest)) = (authority, rest) := by
  have hpass : ∀ c ∈ authority, (!endsAuthority c) = true := by
    intro c hc
    rw [hauthority c hc]
    rfl
  have hnone : rest.takeWhile (!endsAuthority ·) = [] := takeWhile_append_ended hrest []
  have hsplit : rest.takeWhile (!endsAuthority ·) ++ rest.dropWhile (!endsAuthority ·) = rest :=
    List.takeWhile_append_dropWhile
  rw [hnone, List.nil_append] at hsplit
  rw [takeAuthority, List.takeWhile_append_of_pos hpass, List.dropWhile_append_of_pos hpass, hnone,
    hsplit, List.append_nil]

theorem takeAuthority_append (hauthority : ∀ c ∈ authority, endsAuthority c = false)
    (hrest : Begins enders rest) :
    (takeAuthority ('/' :: '/' :: (authority ++ rest))).1 = authority := by
  rw [takeAuthority_spelled hauthority hrest]

/-- A text behind a scheme that does not begin with two slashes has no authority. -/
theorem takeAuthority_of_ne (h : ∀ more, rest ≠ '/' :: '/' :: more) :
    takeAuthority rest = ([], rest) := by
  unfold takeAuthority
  split
  · rename_i more
    exact absurd rfl (h more)
  · rfl

theorem not_ends_of_mem {c : Char} (h : c ∈ (takeAuthority rest).1) : endsAuthority c = false := by
  unfold takeAuthority at h
  split at h
  · have hpass := List.all_eq_true.1 List.all_takeWhile c h
    simpa using hpass
  · cases h

theorem subset_takeAuthority (rest : List Char) :
    (takeAuthority rest).1 ⊆ rest ∧ (takeAuthority rest).2 ⊆ rest := by
  unfold takeAuthority
  split
  · rename_i more
    have hmore : more ⊆ '/' :: '/' :: more := fun c hc => by simp [hc]
    exact ⟨List.Subset.trans (List.takeWhile_subset _) hmore,
      List.Subset.trans (List.dropWhile_subset _) hmore⟩
  · exact ⟨List.nil_subset _, fun c hc => hc⟩

/-! ## Joined text -/

/-- What is joined behind the scheme and its colon. -/
def Parts.behindScheme (p : Parts) : List Char :=
  (if p.spellsAuthority then '/' :: '/' :: (p.authority.toList ++ rooted p.path.toList)
    else p.path.toList) ++ (marked '?' p.query ++ marked '#' p.fragment)

theorem toList_join {p : Parts} (h : p.scheme ≠ "") :
    p.join.toList = p.scheme.toList ++ ':' :: p.behindScheme := by
  simp only [Parts.join, Parts.behindScheme, h, if_false, String.toList_ofList, List.append_assoc,
    List.cons_append, List.nil_append]

/-- An authority is not spelled out only if it is empty. -/
theorem spellsAuthority_iff {p : Parts} : p.spellsAuthority = true ↔
    p.authority ≠ "" ∨
      (p.scheme ∈ authoritySchemes ∧ ∀ more, p.path.toList ≠ '/' :: '/' :: more) := by
  have hslashes : ['/', '/'].isPrefixOf p.path.toList = false ↔
      ∀ more, p.path.toList ≠ '/' :: '/' :: more := by
    rw [← Bool.not_eq_true, List.isPrefixOf_iff_prefix]
    constructor
    · intro h more hmore
      exact h ⟨more, hmore.symm⟩
    · rintro h ⟨more, hmore⟩
      exact h more hmore.symm
  simp only [Parts.spellsAuthority, Bool.or_eq_true, bne_iff_ne, Bool.and_eq_true,
    List.contains_iff_mem, Bool.not_eq_true', hslashes]

theorem begins_marked {mark : Char} {firsts : List Char} (h : mark ∈ firsts) (part : String) :
    Begins firsts (marked mark part) := by
  unfold marked
  split
  · nofun
  · intro c hc
    cases hc
    exact h

theorem begins_marks (p : Parts) :
    Begins ['?', '#'] (marked '?' p.query ++ marked '#' p.fragment) :=
  (begins_marked (by decide) _).append (begins_marked (by decide) _)

theorem begins_rooted (path : List Char) : Begins ['/'] (rooted path) := by
  cases path with
  | nil => nofun
  | cons c rest =>
    intro d hd
    by_cases hslash : c = '/'
    · rw [rooted, if_pos hslash] at hd
      cases hd
      exact List.mem_singleton.2 hslash
    · rw [rooted, if_neg hslash] at hd
      cases hd
      exact List.mem_singleton_self _

theorem begins_dropWhile (mark : Char) (text : List Char) :
    Begins [mark] (text.dropWhile (· != mark)) := by
  intro c hc
  have hfirst := List.head?_dropWhile_not (· != mark) text
  rw [hc] at hfirst
  exact List.mem_singleton.2 (by simpa using hfirst)

/-- The path at the beginning of what follows an authority. -/
def pathOf (behind : List Char) : List Char :=
  (behind.takeWhile (· != '#')).takeWhile (· != '?')

theorem path_partsBehind (scheme rest : List Char) :
    (partsBehind scheme rest).path.toList = pathOf (takeAuthority rest).2 := by
  simp only [partsBehind, String.toList_ofList, Text.cut_fst, pathOf]

theorem pathOf_subset (behind : List Char) : pathOf behind ⊆ behind :=
  List.Subset.trans (List.takeWhile_subset _) (List.takeWhile_subset _)

/-- A text without marks in front is part of the path. -/
theorem pathOf_append {before : List Char} (h : ∀ c ∈ before, c ≠ '?' ∧ c ≠ '#')
    (behind : List Char) : pathOf (before ++ behind) = before ++ pathOf behind := by
  have hhash : ∀ c ∈ before, (c != '#') = true := fun c hc => bne_iff_ne.2 (h c hc).2
  have hquestion : ∀ c ∈ before, (c != '?') = true := fun c hc => bne_iff_ne.2 (h c hc).1
  rw [pathOf, List.takeWhile_append_of_pos hhash, List.takeWhile_append_of_pos hquestion, pathOf]

/-- What follows a path begins with a mark. -/
theorem exists_append_pathOf (behind : List Char) :
    ∃ more, behind = pathOf behind ++ more ∧ Begins ['?', '#'] more := by
  refine ⟨(behind.takeWhile (· != '#')).dropWhile (· != '?') ++ behind.dropWhile (· != '#'), ?_,
    ((begins_dropWhile _ _).mono (by decide)).append ((begins_dropWhile _ _).mono (by decide))⟩
  rw [← List.append_assoc, pathOf, List.takeWhile_append_dropWhile, List.takeWhile_append_dropWhile]

/-- The authority of the joined text of what stands behind a scheme. -/
def authorityAgain : List Char → List Char
  | '/' :: '/' :: '/' :: '/' :: more => more.takeWhile (!endsAuthority ·)
  | rest => (takeAuthority rest).1

theorem authorityAgain_of_ne (h : ∀ more, rest ≠ '/' :: '/' :: '/' :: '/' :: more) :
    authorityAgain rest = (takeAuthority rest).1 := by
  unfold authorityAgain
  split
  · rename_i more
    exact absurd rfl (h more)
  · rfl

/-- Only behind an empty authority that is spelled out, a path begins with two slashes. -/
theorem pathOf_ne_slashes (hempty : (takeAuthority rest).1 = [])
    (hfour : ∀ more, rest ≠ '/' :: '/' :: '/' :: '/' :: more) (more : List Char) :
    pathOf (takeAuthority rest).2 ≠ '/' :: '/' :: more := by
  intro hpath
  obtain ⟨behind, hbehind, _⟩ := exists_append_pathOf (takeAuthority rest).2
  rw [hpath, List.cons_append, List.cons_append] at hbehind
  by_cases htwo : ∃ inner, rest = '/' :: '/' :: inner
  · obtain ⟨inner, rfl⟩ := htwo
    have hsplit : inner.takeWhile (!endsAuthority ·) ++ inner.dropWhile (!endsAuthority ·) =
        inner := List.takeWhile_append_dropWhile
    simp only [takeAuthority] at hempty hbehind
    rw [hempty, hbehind, List.nil_append] at hsplit
    exact hfour _ (by rw [← hsplit])
  · rw [takeAuthority_of_ne fun inner hinner => htwo ⟨inner, hinner⟩] at hbehind
    exact htwo ⟨_, hbehind⟩

/-- Marks behind a path do not add slashes to it. -/
theorem append_ne_slashes {path marks : List Char} (hpath : ∀ more, path ≠ '/' :: '/' :: more)
    (hmarks : Begins ['?', '#'] marks) (more : List Char) : path ++ marks ≠ '/' :: '/' :: more := by
  have hslash : ∀ others, marks ≠ '/' :: others := by
    rintro others rfl
    exact absurd (hmarks '/' rfl) (by decide)
  intro heq
  match path with
  | [] => exact hslash _ heq
  | [c] =>
    obtain ⟨_, hrest⟩ := List.cons.inj heq
    exact hslash _ hrest
  | c :: d :: others =>
    obtain ⟨rfl, hrest⟩ := List.cons.inj heq
    obtain ⟨rfl, _⟩ := List.cons.inj hrest
    exact hpath others rfl

/-- Marks behind a path are not part of what is taken from it. -/
theorem takeAuthority_append_marks {marks : List Char} (hmarks : Begins ['?', '#'] marks)
    (path : List Char) :
    takeAuthority (path ++ marks) = ((takeAuthority path).1, (takeAuthority path).2 ++ marks) := by
  by_cases hslashes : ∃ more, path = '/' :: '/' :: more
  · obtain ⟨more, rfl⟩ := hslashes
    have hends : Begins enders marks := hmarks.mono (by decide)
    rw [List.cons_append, List.cons_append, takeAuthority, takeAuthority,
      takeWhile_append_ended hends, dropWhile_append_ended hends]
  · have hpath : ∀ more, path ≠ '/' :: '/' :: more := fun more hmore => hslashes ⟨more, hmore⟩
    rw [takeAuthority_of_ne hpath, takeAuthority_of_ne (append_ne_slashes hpath hmarks)]

/-- **Joined text has the authority of the original**, but for the one that an empty authority
hides. -/
theorem takeAuthority_joined (scheme : List Char) (hkept : ∀ c ∈ rest, isKept c = true) :
    (takeAuthority ((partsBehind scheme rest).behindScheme.filter isKept)).1 =
      authorityAgain rest := by
  have hfilter : ∀ {text : List Char}, text ⊆ rest → text.filter isKept = text :=
    fun hsub => List.filter_eq_self.2 fun c hc => hkept c (hsub hc)
  obtain ⟨hauthority, hbehind⟩ := subset_takeAuthority rest
  have hmarks := (begins_marks (partsBehind scheme rest)).filter (by decide)
  have hname : (partsBehind scheme rest).authority.toList = (takeAuthority rest).1 := by
    simp only [partsBehind, String.toList_ofList]
  have hpath := path_partsBehind scheme rest
  have hpathKept := hfilter (List.Subset.trans (pathOf_subset _) hbehind)
  by_cases hspells : (partsBehind scheme rest).spellsAuthority = true
  · -- the authority is spelled out, and a slash, a mark or nothing follows
    have hfour : ∀ more, rest ≠ '/' :: '/' :: '/' :: '/' :: more := by
      rintro more rfl
      rcases spellsAuthority_iff.1 hspells with hsome | ⟨_, hslashes⟩
      · exact hsome (String.toList_inj.1 hname)
      · exact hslashes _ hpath
    have hbegins : Begins enders (rooted (partsBehind scheme rest).path.toList ++
        (marked '?' (partsBehind scheme rest).query ++
          marked '#' (partsBehind scheme rest).fragment)) :=
      ((begins_rooted _).mono (by decide)).append ((begins_marks _).mono (by decide))
    rw [authorityAgain_of_ne hfour, Parts.behindScheme, if_pos hspells, hname, List.cons_append,
      List.cons_append, List.append_assoc, List.filter_cons_of_pos rfl, List.filter_cons_of_pos rfl,
      List.filter_append, hfilter hauthority]
    exact takeAuthority_append (fun c hc => not_ends_of_mem hc) (hbegins.filter fun c hc => hc)
  · rw [Parts.behindScheme, if_neg hspells, List.filter_append, hpath, hpathKept]
    have hempty : (takeAuthority rest).1 = [] := by
      by_contra hsome
      refine hspells (spellsAuthority_iff.2 (Or.inl fun hnone => hsome ?_))
      rw [← hname, hnone]
      rfl
    by_cases hfour : ∃ more, rest = '/' :: '/' :: '/' :: '/' :: more
    · -- the path takes over from the empty authority
      obtain ⟨more, rfl⟩ := hfour
      obtain ⟨tail, htail, hends⟩ := exists_append_pathOf more
      have hslashes : pathOf (takeAuthority ('/' :: '/' :: '/' :: '/' :: more)).2 =
          '/' :: '/' :: pathOf more := rfl
      rw [hslashes, List.cons_append, List.cons_append, takeAuthority, authorityAgain]
      calc (pathOf more ++ _).takeWhile (!endsAuthority ·)
        _ = (pathOf more).takeWhile (!endsAuthority ·) :=
          takeWhile_append_ended (hmarks.mono (by decide)) _
        _ = (pathOf more ++ tail).takeWhile (!endsAuthority ·) :=
          (takeWhile_append_ended (hends.mono (by decide)) _).symm
        _ = more.takeWhile (!endsAuthority ·) := by rw [← htail]
    · have hne : ∀ more, rest ≠ '/' :: '/' :: '/' :: '/' :: more :=
        fun more hmore => hfour ⟨more, hmore⟩
      rw [authorityAgain_of_ne hne, hempty,
        takeAuthority_of_ne (append_ne_slashes (pathOf_ne_slashes hempty hne) hmarks)]

/-! ## The texts of URLs -/

/-- **A text hides an authority** behind an empty one: `scheme:////hidden`, and then nothing, a
slash, `?` or `#`. -/
def Hides (text : String) (hidden : List Char) : Prop :=
  ∃ spelled behind, SpellsScheme spelled ∧ Begins enders behind ∧
    (∀ c ∈ hidden, endsAuthority c = false) ∧
    clean text.toList = spelled ++ ':' :: '/' :: '/' :: '/' :: '/' :: (hidden ++ behind)

/-- What looks like a URL begins with a scheme. -/
theorem spells_of_looksLikeUrl {text : String} (h : Specifier.looksLikeUrl text.toList = true) :
    ∃ spelled rest, SpellsScheme spelled ∧ text.toList = spelled ++ ':' :: rest := by
  unfold Specifier.looksLikeUrl at h
  split at h
  · rename_i first more next others hcut
    simp only [Bool.and_eq_true] at h
    obtain ⟨htext, _⟩ := Text.eq_of_cut_some hcut
    exact ⟨first :: more, next :: others, ⟨first, more, rfl, h.1.1, h.1.2⟩, htext⟩
  · cases h

/-- A scheme, a colon and what does not begin with a line end look like a URL. -/
theorem looksLikeUrl_of_spells (h : SpellsScheme spelled) {next : Char} (hnext : next ≠ '\n')
    (others : List Char) : Specifier.looksLikeUrl (spelled ++ ':' :: next :: others) = true := by
  have hcolon : ':' ∉ spelled := fun hmem => (plain_of_isSchemeChar (h.mem hmem)).2 rfl
  obtain ⟨first, more, rfl, hfirst, hmore⟩ := h
  unfold Specifier.looksLikeUrl
  rw [Text.cut_append hcolon]
  simp only [hfirst, hmore, Bool.and_self, Bool.true_and, bne_iff_ne]
  exact hnext

/-- **A URL that was read** has an authority that was accepted, and its text can be split exactly
if the authority of the joined text is accepted too. -/
theorem parts_of_parse (fault : Malformed) {text : String} {u : Url}
    (hscheme : SpellsScheme spelled) (htext : text.toList = spelled ++ ':' :: rest)
    (h : parse text = .ok u) :
    checkAuthority (takeAuthority (rest.filter isKept)).1 = .ok () ∧
      (u.parts = .error fault ↔
        checkAuthority (authorityAgain (rest.filter isKept)) = .error fault) := by
  have hsplit := split_eq (by rw [htext, takeScheme_clean hscheme])
  have hkept : ∀ c ∈ rest.filter isKept, isKept c = true := fun c hc => (List.mem_filter.1 hc).2
  unfold parse at h
  rw [hsplit] at h
  cases hcheck : checkAuthority (takeAuthority (rest.filter isKept)).1 with
  | error other =>
    rw [hcheck] at h
    cases h
  | ok _ =>
    rw [hcheck] at h
    cases h
    refine ⟨rfl, ?_⟩
    -- the text that was joined begins with the scheme once more
    have hname : (partsBehind (spelled.map Char.toLower) (rest.filter isKept)).scheme.toList =
        spelled.map Char.toLower := by
      simp only [partsBehind, String.toList_ofList]
    have hspells := hscheme.toLower
    rw [← hname] at hspells
    have hjoined := toList_join hspells.ne_empty
    rw [hname] at hjoined
    have hagain := split_eq (by rw [hjoined, takeScheme_clean hscheme.toLower])
    rw [takeAuthority_joined _ hkept] at hagain
    rw [parts, hagain]
    cases checkAuthority (authorityAgain (rest.filter isKept)) with
    | error other => simp [Except.map]
    | ok _ => simp [Except.map]

/-- **The text of a tagged URL cannot be split** exactly if the original text hides an authority
that is not accepted. -/
theorem parts_of_tagged {text : String} {u : Url} (h : Specifier.parse text = .url u) :
    u.parts = .error fault ↔
      ∃ hidden, Hides text hidden ∧ checkAuthority hidden = .error fault := by
  unfold Specifier.parse at h
  split at h
  · rename_i hlooks
    obtain ⟨spelled, rest, hscheme, htext⟩ := spells_of_looksLikeUrl hlooks
    cases hparse : parse text with
    | error other => simp [hparse] at h
    | ok read =>
      rw [hparse] at h
      cases h
      have hclean := clean_append hscheme rest
      obtain ⟨haccepted, hparts⟩ := parts_of_parse fault hscheme htext hparse
      rw [hparts]
      constructor
      · intro hfault
        by_cases hfour : ∃ more, rest.filter isKept = '/' :: '/' :: '/' :: '/' :: more
        · obtain ⟨more, hmore⟩ := hfour
          rw [hmore, authorityAgain] at hfault
          refine ⟨_, ⟨spelled, more.dropWhile (!endsAuthority ·), hscheme, begins_behind more,
            ?_, ?_⟩, hfault⟩
          · intro c hc
            have hpass := List.all_eq_true.1 List.all_takeWhile c hc
            simpa using hpass
          · rw [htext, hclean, hmore, List.takeWhile_append_dropWhile]
        · rw [authorityAgain_of_ne fun more hmore => hfour ⟨more, hmore⟩, haccepted] at hfault
          cases hfault
      · rintro ⟨hidden, ⟨other, behind, hother, hbehind, hends, hsame⟩, hfault⟩
        -- a text is cut at its first colon in one way
        have hrest : rest.filter isKept = '/' :: '/' :: '/' :: '/' :: (hidden ++ behind) := by
          have htake := takeScheme_clean hscheme rest
          rw [← htext, hsame, takeScheme_append hother] at htake
          exact (Prod.mk.inj htake).2.symm
        have hhidden : hidden.takeWhile (!endsAuthority ·) = hidden :=
          List.takeWhile_eq_self_iff.2 fun c hc => by simp [hends c hc]
        rw [hrest, authorityAgain, takeWhile_append_ended hbehind, hhidden, hfault]
  · cases h

/-- **A text with a given authority** behind its scheme is split if that is accepted. -/
theorem split_spelled {text : String} (hscheme : SpellsScheme spelled)
    (hauthority : ∀ c ∈ authority, endsAuthority c = false ∧ isKept c = true)
    (hcheck : checkAuthority authority = .ok ()) (hrest : Begins enders rest)
    (htext : text.toList = spelled ++ ':' :: '/' :: '/' :: (authority ++ rest)) :
    split text = .ok (partsBehind (spelled.map Char.toLower)
      ('/' :: '/' :: (authority ++ rest.filter isKept))) := by
  have hkept : authority.filter isKept = authority :=
    List.filter_eq_self.2 fun c hc => (hauthority c hc).2
  have hbehind : ('/' :: '/' :: (authority ++ rest)).filter isKept =
      '/' :: '/' :: (authority ++ rest.filter isKept) := by
    rw [List.filter_cons_of_pos rfl, List.filter_cons_of_pos rfl, List.filter_append, hkept]
  have hsplit := split_eq (by rw [htext, takeScheme_clean hscheme, hbehind])
  rw [takeAuthority_append (fun c hc => (hauthority c hc).1) (hrest.filter fun c hc => hc),
    hcheck] at hsplit
  exact hsplit

end LockPrefetch.Url
