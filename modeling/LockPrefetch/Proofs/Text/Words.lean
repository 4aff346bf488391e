import LockPrefetch.Text.Split

/-! # The words of a text

A text spells words: runs of characters that are not blank, as long as they can be, with blanks of
any kind around them (`Spells`). Every text spells its words (`spells_words`) and no others
(`spells_iff`). -/

set_option autoImplicit false

namespace LockPrefetch.Text

variable {text gap word rest : List Char} {ws : List (List Char)}

/-- Characters that are all blank. -/
def Blank (gap : List Char) : Prop := ∀ c ∈ gap, isBlank c = true

/-- A word: there are characters in it, and none of them is blank. -/
def IsWord (word : List Char) : Prop := word ≠ [] ∧ ∀ c ∈ word, isBlank c = false

/-- **A text spells words**: blanks of any kind may stand in front of them and behind them, and
behind each word the text ends or a blank stands. -/
inductive Spells : List Char → List (List Char) → Prop
  | blank {gap : List Char} (hgap : Blank gap) : Spells gap []
  | word {gap word rest : List Char} {ws : List (List Char)} (hgap : Blank gap)
    (hword : IsWord word) (hstop : ∀ c ∈ rest.head?, isBlank c = true)
    (hrest : Spells rest ws) : Spells (gap ++ (word ++ rest)) (word :: ws)

/-! ## Words by their first character -/

theorem words_cons_blank {c : Char} (hc : isBlank c = true) (rest : List Char) :
    words (c :: rest) = words rest := by
  rw [words.eq_def]
  simp only [hc, if_true]

/-- A character that is not blank is a word if a blank follows it, or nothing. -/
theorem words_cons_stop {c : Char} (hc : isBlank c = false)
    (hstop : ∀ d ∈ rest.head?, isBlank d = true) : words (c :: rest) = [c] :: words rest := by
  rw [words.eq_def]
  simp only [hc, Bool.false_eq_true, if_false]
  cases rest with
  | nil => rfl
  | cons d more =>
      have hd : isBlank d = true := hstop d rfl
      cases words (d :: more) <;> simp [hd]

/-- A character that is not blank prolongs the word that it stands in front of. -/
theorem words_cons_character {c d : Char} (hc : isBlank c = false) (hd : isBlank d = false)
    (h : words (d :: rest) = word :: ws) : words (c :: d :: rest) = (c :: word) :: ws := by
  rw [words.eq_def]
  simp only [hc, hd, h, Bool.false_eq_true, if_false]

/-! ## Every text spells its words -/

/-- One more blank in front of a text changes nothing. -/
theorem Spells.cons_blank {c : Char} (hc : isBlank c = true) (h : Spells text ws) :
    Spells (c :: text) ws := by
  cases h with
  | blank hgap => exact .blank (List.forall_mem_cons.2 ⟨hc, hgap⟩)
  | word hgap hword hstop hrest =>
      exact .word (List.forall_mem_cons.2 ⟨hc, hgap⟩) hword hstop hrest

theorem Spells.cons_stop {c : Char} (hc : isBlank c = false)
    (hstop : ∀ d ∈ text.head?, isBlank d = true) (h : Spells text ws) :
    Spells (c :: text) ([c] :: ws) := by
  have hgap : Blank [] := nofun
  have hword : IsWord [c] := ⟨by simp, by simpa using hc⟩
  exact .word hgap hword hstop h

/-- A text that begins with a character that is not blank begins with a word. -/
theorem Spells.word_first {d : Char} (hd : isBlank d = false) (h : Spells (d :: text) ws) :
    ∃ word rest others, d :: text = word ++ rest ∧ ws = word :: others ∧ IsWord word ∧
      (∀ c ∈ rest.head?, isBlank c = true) ∧ Spells rest others := by
  generalize hwhole : d :: text = whole at h
  cases h with
  | blank hgap =>
      rw [← hwhole] at hgap
      rw [hgap d List.mem_cons_self] at hd
      cases hd
  | @word gap word rest others hgap hword hstop hrest =>
      cases gap with
      | nil => exact ⟨word, rest, others, rfl, rfl, hword, hstop, hrest⟩
      | cons e gap =>
          obtain ⟨rfl, _⟩ := List.cons.inj hwhole
          rw [hgap d List.mem_cons_self] at hd
          cases hd

/-- **Every text spells its words.** -/
theorem spells_words (text : List Char) : Spells text (words text) := by
  induction text with
  | nil => exact .blank nofun
  | cons c rest ih =>
      by_cases hc : isBlank c = true
      · rw [words_cons_blank hc]
        exact ih.cons_blank hc
      have hc : isBlank c = false := by simpa using hc
      by_cases hstop : ∀ d ∈ rest.head?, isBlank d = true
      · rw [words_cons_stop hc hstop]
        exact ih.cons_stop hc hstop
      -- a character follows that is not blank, and with it a word that is one character shorter
      cases rest with
      | nil => exact absurd nofun hstop
      | cons d more =>
          have hd : isBlank d = false := by simpa using hstop
          obtain ⟨word, behind, others, hsplit, hwords, hword, hbehind, hothers⟩ :=
            ih.word_first hd
          have hlonger : IsWord (c :: word) := ⟨by simp, List.forall_mem_cons.2 ⟨hc, hword.2⟩⟩
          rw [words_cons_character hc hd hwords, hsplit]
          have hgap : Blank [] := nofun
          exact .word hgap hlonger hbehind hothers

/-! ## No other words -/

theorem words_append_gap (hgap : Blank gap) (rest : List Char) :
    words (gap ++ rest) = words rest := by
  induction gap with
  | nil => rfl
  | cons c gap ih =>
      obtain ⟨hc, hgap⟩ := List.forall_mem_cons.1 hgap
      rw [List.cons_append, words_cons_blank hc, ih hgap]

/-- A word in front of a blank, or of nothing, is the first one. -/
theorem words_append_word (hword : IsWord word) (hstop : ∀ c ∈ rest.head?, isBlank c = true) :
    words (word ++ rest) = word :: words rest := by
  obtain ⟨hne, hnone⟩ := hword
  induction word with
  | nil => exact absurd rfl hne
  | cons c word ih =>
      obtain ⟨hc, hnone⟩ := List.forall_mem_cons.1 hnone
      cases word with
      | nil => exact words_cons_stop hc hstop
      | cons d word =>
          exact words_cons_character hc (hnone d List.mem_cons_self) (ih (by simp) hnone)

/-- **A text spells its words and no others.** -/
theorem spells_iff : Spells text ws ↔ words text = ws := by
  constructor
  · intro h
    induction h with
    | @blank gap hgap =>
        have hnone := words_append_gap hgap []
        rwa [List.append_nil] at hnone
    | word hgap hword hstop _ ih => rw [words_append_gap hgap, words_append_word hword hstop, ih]
  · rintro rfl
    exact spells_words text

end LockPrefetch.Text
