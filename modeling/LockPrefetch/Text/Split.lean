import LockPrefetch.Text.Blank

/-! # Taking text apart

Cuts at the first or the last occurrence of a character, pieces between separators, words
between blanks. Nothing is lost: a text is what comes before a cut, the separator and what
comes after it. -/

set_option autoImplicit false

namespace LockPrefetch.Text

/-- What comes before the first `sep`, and what comes after it if there is one. -/
def cut (sep : Char) (text : List Char) : List Char × Option (List Char) :=
  match text.dropWhile (· != sep) with
  | [] => (text, none)
  | _ :: rest => (text.takeWhile (· != sep), some rest)

/-- What comes before the last `sep`, if there is one, and what comes after it. -/
def cutLast (sep : Char) (text : List Char) : Option (List Char) × List Char :=
  match cut sep text.reverse with
  | (_, none) => (none, text)
  | (after, some before) => (some before.reverse, after.reverse)

/-- The pieces between occurrences of `sep`, one more than there are occurrences. -/
def pieces (sep : Char) : List Char → List (List Char)
  | [] => [[]]
  | c :: rest =>
    if c = sep then [] :: pieces sep rest
    else
      match pieces sep rest with
      | [] => [[c]]
      | piece :: more => (c :: piece) :: more

/-- The maximal runs of characters that are not blank. -/
def words : List Char → List (List Char)
  | [] => []
  | c :: rest =>
    if isBlank c then words rest
    else
      match rest, words rest with
      | d :: _, word :: more => if isBlank d then [c] :: word :: more else (c :: word) :: more
      | _, more => [c] :: more

/-- A text without the blanks at its two ends. -/
def strip (text : List Char) : List Char :=
  ((text.dropWhile isBlank).reverse.dropWhile isBlank).reverse

/-- A text without one ending, where it has that ending. -/
def withoutEnding (ending text : List Char) : List Char :=
  if ending.isSuffixOf text then text.take (text.length - ending.length) else text

/-- Whether `part` occurs somewhere in a text. -/
def holds (part : List Char) : List Char → Bool
  | [] => part.isEmpty
  | c :: rest => part.isPrefixOf (c :: rest) || holds part rest

/-! ## What cuts and pieces are -/

theorem cut_append {sep : Char} {before : List Char} (h : sep ∉ before) (after : List Char) :
    cut sep (before ++ sep :: after) = (before, some after) := by
  have other : ∀ c ∈ before, (c != sep) = true := by
    intro c hc
    simpa using fun e : c = sep => h (e ▸ hc)
  simp [cut, List.dropWhile_append_of_pos other, List.takeWhile_append_of_pos other]

/-- What stands before the first separator, and what behind it, is determined by the text. -/
theorem eq_of_append_eq {sep : Char} {before other after rest : List Char} (h : sep ∉ before)
    (hother : sep ∉ other) (heq : other ++ sep :: rest = before ++ sep :: after) :
    other = before ∧ rest = after := by
  have hcut := cut_append h after
  rw [← heq, cut_append hother] at hcut
  cases hcut
  exact ⟨rfl, rfl⟩

theorem cut_of_not_mem {sep : Char} {text : List Char} (h : sep ∉ text) :
    cut sep text = (text, none) := by
  have other : ∀ c ∈ text, (c != sep) = true := by
    intro c hc
    simpa using fun e : c = sep => h (e ▸ hc)
  have nothing : text.dropWhile (· != sep) = [] := by
    rw [← List.append_nil text, List.dropWhile_append_of_pos other]
    rfl
  simp [cut, nothing]

theorem not_mem_takeWhile (sep : Char) (text : List Char) :
    sep ∉ text.takeWhile (· != sep) := by
  intro hmem
  have hall := List.all_eq_true.1 (List.all_takeWhile (l := text) (p := (· != sep)))
  simpa using hall sep hmem

/-- What is cut at a separator is what stands around its first occurrence. -/
theorem eq_of_cut_some {sep : Char} {text before after : List Char}
    (h : cut sep text = (before, some after)) : text = before ++ sep :: after ∧ sep ∉ before := by
  have hsplit : text.takeWhile (· != sep) ++ text.dropWhile (· != sep) = text :=
    List.takeWhile_append_dropWhile
  unfold cut at h
  split at h
  · cases h
  · rename_i c rest hdrop
    cases h
    have hc : c = sep := by
      have hfirst := List.head?_dropWhile_not (· != sep) text
      rw [hdrop] at hfirst
      simpa using hfirst
    rw [hdrop, hc] at hsplit
    exact ⟨hsplit.symm, not_mem_takeWhile sep text⟩

/-- What is not cut holds no separator. -/
theorem eq_of_cut_none {sep : Char} {text before : List Char}
    (h : cut sep text = (before, none)) : before = text ∧ sep ∉ text := by
  have hsplit : text.takeWhile (· != sep) ++ text.dropWhile (· != sep) = text :=
    List.takeWhile_append_dropWhile
  unfold cut at h
  split at h
  · rename_i hdrop
    cases h
    rw [hdrop, List.append_nil] at hsplit
    rw [← hsplit]
    exact ⟨rfl, not_mem_takeWhile sep text⟩
  · cases h

/-- What comes before a cut is what runs up to the separator. -/
theorem cut_fst (sep : Char) (text : List Char) :
    (cut sep text).1 = text.takeWhile (· != sep) := by
  have hsplit : text.takeWhile (· != sep) ++ text.dropWhile (· != sep) = text :=
    List.takeWhile_append_dropWhile
  unfold cut
  split
  · rename_i hdrop
    rw [hdrop, List.append_nil] at hsplit
    exact hsplit.symm
  · rfl

/-- What comes after a cut stands in the text. -/
theorem cut_snd_subset (sep : Char) (text : List Char) : (cut sep text).2.getD [] ⊆ text := by
  unfold cut
  split
  · exact List.nil_subset _
  · rename_i c rest hdrop
    intro d hd
    apply List.dropWhile_subset (· != sep)
    rw [hdrop]
    exact List.mem_cons_of_mem _ hd

theorem pieces_ne_nil (sep : Char) (text : List Char) : pieces sep text ≠ [] := by
  cases text with
  | nil => simp [pieces]
  | cons c rest =>
    unfold pieces
    split
    · simp
    · split <;> simp

theorem pieces_of_not_mem {sep : Char} {text : List Char} (h : sep ∉ text) :
    pieces sep text = [text] := by
  induction text with
  | nil => rfl
  | cons c rest ih =>
    have hc : c ≠ sep := fun e => h (by simp [e])
    have hr : sep ∉ rest := fun m => h (by simp [m])
    simp [pieces, hc, ih hr]

/-- A piece in front of a separator is the first piece. -/
theorem pieces_append {sep : Char} {piece : List Char} (h : sep ∉ piece) (rest : List Char) :
    pieces sep (piece ++ sep :: rest) = piece :: pieces sep rest := by
  induction piece with
  | nil => simp [pieces]
  | cons c more ih =>
    have hc : c ≠ sep := fun e => h (by simp [e])
    have hm : sep ∉ more := fun m => h (by simp [m])
    simp [pieces, hc, ih hm]

/-- A text is one piece, or its first piece, a separator and the text of the others. -/
theorem pieces_cases {sep : Char} {text piece : List Char} {more : List (List Char)}
    (h : pieces sep text = piece :: more) : sep ∉ piece ∧
      (more = [] ∧ text = piece ∨
        ∃ rest, text = piece ++ sep :: rest ∧ pieces sep rest = more) := by
  by_cases hmem : sep ∈ text
  · obtain ⟨before, rest, rfl, hbefore⟩ := List.eq_append_cons_of_mem hmem
    rw [pieces_append hbefore] at h
    cases h
    exact ⟨hbefore, Or.inr ⟨rest, rfl, rfl⟩⟩
  · rw [pieces_of_not_mem hmem] at h
    cases h
    exact ⟨hmem, Or.inl ⟨rfl, rfl⟩⟩

/-- A piece stands in the text and holds no separator. -/
theorem of_mem_pieces {sep : Char} {text piece : List Char} (h : piece ∈ pieces sep text) :
    piece ⊆ text ∧ sep ∉ piece := by
  induction hpieces : pieces sep text generalizing text with
  | nil => exact absurd hpieces (pieces_ne_nil sep text)
  | cons first more ih =>
    rw [hpieces] at h
    obtain ⟨hfirst, ⟨rfl, rfl⟩ | ⟨rest, rfl, hrest⟩⟩ := pieces_cases hpieces
    · rw [List.mem_singleton.1 h]
      exact ⟨List.Subset.refl _, hfirst⟩
    · rcases List.mem_cons.1 h with rfl | hmem
      · exact ⟨List.subset_append_left _ _, hfirst⟩
      · rw [← hrest] at hmem
        obtain ⟨hsubset, hnone⟩ := ih hmem hrest
        exact ⟨fun c hc => List.mem_append_right _ (List.mem_cons_of_mem _ (hsubset hc)), hnone⟩

/-! ## Parts -/

theorem holds_iff {part text : List Char} : holds part text = true ↔ part <:+: text := by
  induction text with
  | nil => rw [holds, List.isEmpty_iff, List.infix_nil]
  | cons c rest ih =>
    rw [holds, Bool.or_eq_true, List.isPrefixOf_iff_prefix, ih, List.infix_cons_iff]

/-- A part that begins with the only separator of a text stands right behind what precedes it. -/
theorem prefix_of_infix {sep : Char} {before text part : List Char} (hbefore : sep ∉ before)
    (htext : sep ∉ text) (h : sep :: part <:+: before ++ sep :: text) : part <+: text := by
  obtain ⟨front, back, heq⟩ := h
  rw [List.append_assoc, List.cons_append] at heq
  by_cases hmem : sep ∈ front
  · -- there would be one more separator behind the first one
    obtain ⟨first, more, rfl, hfirst⟩ := List.eq_append_cons_of_mem hmem
    rw [List.append_assoc, List.cons_append] at heq
    obtain ⟨-, rfl⟩ := eq_of_append_eq hbefore hfirst heq
    exact absurd (List.mem_append_right _ List.mem_cons_self) htext
  · exact ⟨back, (eq_of_append_eq hbefore hmem heq).2⟩

/-! ## Endings -/

theorem withoutEnding_subset (ending text : List Char) : withoutEnding ending text ⊆ text := by
  unfold withoutEnding
  split
  · exact List.take_subset _ _
  · exact List.Subset.refl _

/-- An ending without a separator stands behind the separator. -/
theorem suffix_append_iff {sep : Char} {ending : List Char} (h : sep ∉ ending)
    (before text : List Char) : ending <:+ before ++ sep :: text ↔ ending <:+ text := by
  have hwhole : text <:+ before ++ sep :: text := ⟨before ++ [sep], by simp⟩
  constructor
  · intro hending
    by_cases hlength : ending.length ≤ text.length
    · exact List.suffix_of_suffix_length_le hending hwhole hlength
    · -- an ending that is longer than the text reaches over the separator
      have hover : sep :: text <:+ ending :=
        List.suffix_of_suffix_length_le (List.suffix_append _ _) hending (by simp; omega)
      exact absurd (hover.subset List.mem_cons_self) h
  · exact fun hending => hending.trans hwhole

theorem withoutEnding_append_self (ending text : List Char) :
    withoutEnding ending (text ++ ending) = text := by
  rw [withoutEnding, if_pos (List.isSuffixOf_iff_suffix.2 (List.suffix_append _ _)),
    List.length_append, Nat.add_sub_cancel, List.take_left]

/-- An ending without a separator is taken from what stands behind the separator. -/
theorem withoutEnding_append {sep : Char} {ending : List Char} (h : sep ∉ ending)
    (before text : List Char) :
    withoutEnding ending (before ++ sep :: text) = before ++ sep :: withoutEnding ending text := by
  have hsuffix := suffix_append_iff h before text
  unfold withoutEnding
  by_cases hending : ending <:+ text
  · have hlength := hending.length_le
    rw [if_pos (List.isSuffixOf_iff_suffix.2 (hsuffix.2 hending)),
      if_pos (List.isSuffixOf_iff_suffix.2 hending), List.take_append, List.take_of_length_le
        (by simp; omega), List.length_append, List.length_cons]
    have htake : before.length + (text.length + 1) - ending.length - before.length =
        text.length - ending.length + 1 := by omega
    rw [htake, List.take_succ_cons]
  · rw [if_neg fun hwrong => hending (hsuffix.1 (List.isSuffixOf_iff_suffix.1 hwrong)),
      if_neg fun hwrong => hending (List.isSuffixOf_iff_suffix.1 hwrong)]

end LockPrefetch.Text
