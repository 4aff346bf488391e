import LockPrefetch.Proofs.Json.Refusals

/-! # Reading JSON whose end is missing

What is left of a written object, when its end has been torn off, is not JSON, and the reader
says so with a complaint (`read_torn`). The induction follows the writer: a text is torn within
one of its parts, and all parts before it are whole and read back. Of a whole number it may be
another number that is left, but then the characters end behind it, where the object around it
does not.

The text is compact, so that there is no white space in which it may be torn. -/

set_option autoImplicit false

namespace LockPrefetch.Json

variable {α β : Type} {p s t : List Char} {fuel depth : Nat}

/-! ## Torn texts -/

/-- **What is left of a text** whose end has been torn off. -/
def Torn (p s : List Char) : Prop := ∃ lost, lost ≠ [] ∧ s = p ++ lost

theorem not_torn_nil : ¬ Torn p [] := by
  rintro ⟨lost, hne, hlost⟩
  exact hne (List.append_eq_nil_iff.1 hlost.symm).2

theorem Torn.length_lt (h : Torn p s) : p.length < s.length := by
  obtain ⟨lost, hne, rfl⟩ := h
  rw [List.length_append]
  have := List.length_pos_iff.2 hne
  omega

theorem Torn.mem (h : Torn p s) {c : Char} (hc : c ∈ p) : c ∈ s := by
  obtain ⟨lost, _, rfl⟩ := h
  exact List.mem_append_left _ hc

/-- A text is torn in front of its first character or behind it. -/
theorem torn_cons {c : Char} (h : Torn p (c :: s)) :
    p = [] ∨ ∃ rest, p = c :: rest ∧ Torn rest s := by
  obtain ⟨lost, hne, hlost⟩ := h
  cases p with
  | nil => exact Or.inl rfl
  | cons d rest =>
    obtain ⟨rfl, hrest⟩ := List.cons.inj hlost
    exact Or.inr ⟨rest, rfl, lost, hne, hrest⟩

theorem torn_singleton {c : Char} (h : Torn p [c]) : p = [] := by
  rcases torn_cons h with rfl | ⟨_, _, hnone⟩
  · rfl
  · exact absurd hnone not_torn_nil

theorem torn_pair {c d : Char} (h : Torn p [c, d]) : p = [] ∨ p = [c] := by
  rcases torn_cons h with rfl | ⟨rest, rfl, hrest⟩
  · exact Or.inl rfl
  · exact Or.inr (by rw [torn_singleton hrest])

/-- A text of two parts is torn within the first one or behind it. -/
theorem torn_append (h : Torn p (s ++ t)) : Torn p s ∨ ∃ rest, p = s ++ rest ∧ Torn rest t := by
  induction s generalizing p with
  | nil => exact Or.inr ⟨p, rfl, h⟩
  | cons c s ih =>
    rcases torn_cons h with rfl | ⟨rest, rfl, hrest⟩
    · exact Or.inl ⟨c :: s, by simp, rfl⟩
    · rcases ih hrest with ⟨lost, hne, rfl⟩ | ⟨behind, rfl, hbehind⟩
      · exact Or.inl ⟨lost, hne, rfl⟩
      · exact Or.inr ⟨behind, rfl, hbehind⟩

/-! ## Complaints -/

/-- Reading ends in a complaint, not in a value and not at a number. -/
def Complains (read : Except Stop α) : Prop :=
  ∃ what remaining, read = .error (.complaint what remaining)

theorem complains_bind {read : Except Stop α} {next : α → Except Stop β} (h : Complains read) :
    Complains (read >>= next) := by
  obtain ⟨what, remaining, rfl⟩ := h
  exact ⟨what, remaining, rfl⟩

theorem complains_map {read : Except Stop α} {f : α → β} (h : Complains read) :
    Complains (read.map f) := by
  obtain ⟨what, remaining, rfl⟩ := h
  exact ⟨what, remaining, rfl⟩

/-! ## Strings -/

theorem withUnit_cases (n : Nat) {read : Except Stop (List Nat × List Char)}
    (h : Complains read ∨ ∃ found, read = .ok found) :
    Complains (withUnit n read) ∨ ∃ found, withUnit n read = .ok found := by
  rcases h with h | ⟨found, rfl⟩
  · exact Or.inl (complains_map h)
  · exact Or.inr ⟨_, rfl⟩

/-- A string is read or complained about. -/
theorem readUnits_cases (opening : Nat) (s : List Char) :
    Complains (readUnits opening s) ∨ ∃ found, readUnits opening s = .ok found := by
  fun_induction readUnits opening s with
  | case1 => exact Or.inl ⟨_, _, rfl⟩
  | case2 rest => exact Or.inr ⟨_, rfl⟩
  | case3 a b c d rest hempty => exact Or.inl ⟨_, _, rfl⟩
  | case4 a b c d rest hempty n hn ih => exact withUnit_cases n ih
  | case5 a b c d rest hempty hn => exact Or.inl ⟨_, _, rfl⟩
  | case6 rest hfew => exact Or.inl ⟨_, _, rfl⟩
  | case7 => exact Or.inl ⟨_, _, rfl⟩
  | case8 c rest _ _ escaped _ ih => exact withUnit_cases _ ih
  | case9 c rest => exact Or.inl ⟨_, _, rfl⟩
  | case10 c rest => exact Or.inl ⟨_, _, rfl⟩
  | case11 c rest _ _ _ _ _ _ ih => exact withUnit_cases _ ih

theorem withUnit_eq_ok {n : Nat} {read : Except Stop (List Nat × List Char)} {units : List Nat}
    {rest : List Char} (h : withUnit n read = .ok (units, rest)) :
    ∃ later, read = .ok (later, rest) ∧ units = n :: later := by
  cases read with
  | error stop => cases h
  | ok found =>
    obtain ⟨later, behind⟩ := found
    cases h
    exact ⟨later, rfl, rfl⟩

/-- A string that has been read ends in the same place when more comes behind it. -/
theorem readUnits_append {opening : Nat} {units : List Nat} {rest : List Char}
    (h : readUnits opening s = .ok (units, rest)) (t : List Char) :
    readUnits opening (s ++ t) = .ok (units, rest ++ t) := by
  fun_induction readUnits opening s generalizing units with
  | case1 => cases h
  | case2 more =>
    cases h
    rfl
  | case3 a b c d more hempty => cases h
  | case4 a b c d more hempty n hn ih =>
    obtain ⟨later, hlater, rfl⟩ := withUnit_eq_ok h
    have hne : (more ++ t).isEmpty = false := by
      cases more <;> simp_all
    simp only [List.cons_append, readUnits, hne, hn, ih hlater, withUnit, Except.map]
    rfl
  | case5 a b c d more hempty hn => cases h
  | case6 more hfew => cases h
  | case7 => cases h
  | case8 c more _ hu escaped hescaped ih =>
    obtain ⟨later, hlater, rfl⟩ := withUnit_eq_ok h
    rw [List.cons_append, List.cons_append, readUnits, hescaped]
    · simp only [ih hlater, withUnit, Except.map]
    · rintro _ _ _ _ _ rfl
      exact absurd rfl hu
    · rintro rfl
      exact absurd rfl hu
  | case9 c more => cases h
  | case10 c more => cases h
  | case11 c more hquote _ _ hnil hother hvisible ih =>
    obtain ⟨later, hlater, rfl⟩ := withUnit_eq_ok h
    have hbackslash : c ≠ '\\' := by
      intro hc
      cases more with
      | nil => exact hnil hc rfl
      | cons d more => exact hother d more hc rfl
    rw [List.cons_append, readUnits, if_neg hvisible]
    · simp only [ih hlater, withUnit, Except.map]
    · exact hquote
    all_goals
      intros
      contradiction

/-- **A torn string is complained about**: if it were read, more behind it would not change that,
but behind the whole of it nothing is left. -/
theorem torn_readString (opening : Nat) {text : String}
    (h : Torn p (text.toList.flatMap (escaped false) ++ ['"'])) :
    Complains (readString opening p) := by
  rcases readUnits_cases opening p with hcomplains | ⟨⟨units, rest⟩, hread⟩
  · exact complains_map hcomplains
  · obtain ⟨lost, hne, hlost⟩ := h
    have hwhole := readUnits_append hread lost
    rw [← hlost, readUnits_text] at hwhole
    injection hwhole with hpair
    exact absurd (List.append_eq_nil_iff.1 (Prod.mk.inj hpair).2.symm).2 hne

/-! ## Numbers and constants -/

/-- Without digits there is no number. -/
theorem complains_readNumber {minus : List Char} (hminus : minusPart p = (minus, s))
    (hwhole : (wholePart s).1 = []) : Complains (readNumber p) := by
  rcases hparts : wholePart s with ⟨whole, rest⟩
  rw [hparts] at hwhole
  subst hwhole
  simp only [readNumber, hminus, hparts]
  exact ⟨_, _, rfl⟩

/-- Digits that are few enough are a number. -/
theorem readNumber_digits {minus : List Char} (hminus : minusPart p = (minus, s)) (hne : s ≠ [])
    (hdigits : ∀ c ∈ s, c.isDigit = true) (hlead : s.head? ≠ some '0')
    (hfew : s.length ≤ Text.maxDigits) : ∃ n, readNumber p = .ok (.integer n, []) := by
  have hnone : Stops [] := nofun
  have hwhole := wholePart_of_stops hdigits hlead hnone
  rw [List.append_nil] at hwhole
  have hempty : s.isEmpty = false := by simpa using hne
  refine ⟨if minus.isEmpty then Text.ofDecimal s else -Text.ofDecimal s, ?_⟩
  simp [readNumber, hminus, hwhole, hempty, fractionPart_of_stops hnone,
    exponentPart_of_stops hnone, Nat.not_lt.2 hfew]

/-- What neither begins a string, an array, an object nor a constant is read as a number. -/
theorem readValue_number (hnone : constant? s = none)
    (hfirst : ∀ c ∈ s.head?, c ≠ '"' ∧ c ≠ '[' ∧ c ≠ '\x7b') (fuel : Nat) :
    readValue (fuel + 1) s = readNumber s := by
  rw [readValue, hnone]
  all_goals
    rintro rest rfl
    have := hfirst _ rfl
    simp at this

/-- What is left of digits is a number or nothing. -/
theorem torn_digits {n : Nat} (hn : (Text.decimal n).length ≤ Text.maxDigits)
    (h : Torn s (Text.decimal n)) {minus : List Char} (hminus : minusPart p = (minus, s)) :
    Complains (readNumber p) ∨ ∃ m, readNumber p = .ok (.integer m, []) := by
  by_cases hempty : s = []
  · subst hempty
    exact Or.inl (complains_readNumber hminus rfl)
  · have hshort := Nat.le_trans (Nat.le_of_lt h.length_lt) hn
    refine Or.inr (readNumber_digits hminus hempty ?_ ?_ hshort)
    · exact fun c hc => Text.isDigit_of_mem_decimal n c (h.mem hc)
    · -- a number of more than one digit is not zero
      have hpositive : n ≠ 0 := by
        rintro rfl
        rw [Text.decimal_of_lt (by omega)] at h
        exact hempty (torn_singleton h)
      obtain ⟨c, more, rfl⟩ := List.exists_cons_of_ne_nil hempty
      obtain ⟨lost, _, hlost⟩ := h
      have hhead := Text.head?_decimal hpositive
      rw [hlost] at hhead
      exact hhead

/-- **What is left of a whole number** is another one, or no number. -/
theorem torn_signedDecimal {n : Int} (hn : Sized n) (h : Torn p (Text.signedDecimal n))
    (fuel : Nat) :
    Complains (readValue (fuel + 1) p) ∨
      ∃ m, readValue (fuel + 1) p = .ok (.integer m, []) := by
  cases n with
  | ofNat m =>
    have hdigit : ∀ c ∈ p, c.isDigit = true := fun c hc =>
      Text.isDigit_of_mem_decimal m c (h.mem hc)
    cases p with
    | nil =>
      rw [readValue_number rfl (by simp)]
      exact torn_digits hn h rfl
    | cons c more =>
      have hc := hdigit c List.mem_cons_self
      rw [readValue_number (constant?_digit hc more)]
      · exact torn_digits hn h (minusPart_digit hc more)
      · intro d hd
        cases hd
        refine ⟨?_, ?_, ?_⟩ <;> rintro rfl <;> cases hc
  | negSucc m =>
    rcases torn_cons h with rfl | ⟨digits, rfl, hdigits⟩
    · rw [readValue_number rfl (by simp)]
      exact Or.inl (complains_readNumber rfl rfl)
    · have hnone : constant? ('-' :: digits) = none := by
        cases digits with
        | nil => rfl
        | cons c more =>
          have hc := Text.isDigit_of_mem_decimal (m + 1) c (hdigits.mem List.mem_cons_self)
          have hI : 'I' ≠ c := by
            rintro rfl
            cases hc
          simp [constant?, constants, hI]
      rw [readValue_number hnone]
      · exact torn_digits hn hdigits rfl
      · intro d hd
        cases hd
        decide

theorem Torn.eq_take (h : Torn p s) : p.length < s.length ∧ p = s.take p.length := by
  refine ⟨h.length_lt, ?_⟩
  obtain ⟨lost, _, rfl⟩ := h
  exact List.take_left.symm

/-- What is left of a word is complained about if it is no constant and begins no other value. -/
theorem torn_word {first : Char} {word : List Char} (h : Torn p (first :: word))
    (hquiet : first ≠ '"' ∧ first ≠ '[' ∧ first ≠ '\x7b')
    (hword : ∀ k < (first :: word).length, (constant? ((first :: word).take k)).isNone = true ∧
      minusPart ((first :: word).take k) = ([], (first :: word).take k) ∧
      (wholePart ((first :: word).take k)).1 = [])
    (fuel : Nat) : Complains (readValue (fuel + 1) p) := by
  obtain ⟨hlt, htake⟩ := h.eq_take
  obtain ⟨hnone, hminus, hwhole⟩ := hword p.length hlt
  rw [← htake] at hnone hminus hwhole
  have hfirst : ∀ c ∈ p.head?, c ≠ '"' ∧ c ≠ '[' ∧ c ≠ '\x7b' := by
    intro c hc
    rcases torn_cons h with rfl | ⟨rest, rfl, _⟩
    · cases hc
    · cases hc
      exact hquiet
  rw [readValue_number (Option.isNone_iff_eq_none.1 hnone) hfirst]
  exact complains_readNumber hminus hwhole

/-! ## Values -/

/-- A text that begins with no gap begins with none when its end is missing. -/
theorem skip_torn {c : Char} (hc : isGap c = false) (h : Torn p (c :: s)) : skip p = p := by
  rcases torn_cons h with rfl | ⟨rest, rfl, _⟩
  · rfl
  · exact skip_cons hc rest

theorem skip_torn_write {value : Value} (hv : value.Plain)
    (h : Torn p (write .compact depth value ++ s)) : skip p = p := by
  obtain ⟨c, more, hwrite, hc, _⟩ := write_cons .compact depth hv
  rw [hwrite] at h
  exact skip_torn hc h

/-- The items of an array and its end, as they are written. -/
def itemsText (depth : Nat) (item : Value) (items : List Value) : List Char :=
  write .compact depth item ++ (writeItems .compact depth items ++ [']'])

/-- The members of an object and its end, as they are written. -/
def membersText (depth : Nat) (name : String) (value : Value) (members : List (String × Value)) :
    List Char :=
  writeString false name ++
    ':' :: (write .compact depth value ++ (writeMembers .compact depth members ++ ['\x7d']))

theorem newLine_compact (depth : Nat) : Layout.compact.newLine depth = [] := rfl

theorem gaps_compact : Layout.compact.itemGap = [','] ∧ Layout.compact.nameGap = [':'] ∧
    Layout.compact.asciiOnly = false :=
  ⟨rfl, rfl, rfl⟩

theorem write_array (depth : Nat) (item : Value) (items : List Value) :
    write .compact depth (.array (item :: items)) = '[' :: itemsText (depth + 1) item items := by
  simp [write, itemsText, newLine_compact]

theorem write_object (depth : Nat) (name : String) (value : Value)
    (members : List (String × Value)) :
    write .compact depth (.object ((name, value) :: members)) =
      '\x7b' :: membersText (depth + 1) name value members := by
  simp [write, membersText, newLine_compact, gaps_compact]

theorem writeItems_cons (depth : Nat) (item : Value) (items : List Value) :
    writeItems .compact depth (item :: items) ++ [']'] = ',' :: itemsText depth item items := by
  simp [writeItems, itemsText, newLine_compact, gaps_compact]

theorem writeMembers_cons (depth : Nat) (name : String) (value : Value)
    (members : List (String × Value)) :
    writeMembers .compact depth ((name, value) :: members) ++ ['\x7d'] =
      ',' :: membersText depth name value members := by
  simp [writeMembers, membersText, newLine_compact, gaps_compact]

theorem stops_torn {c : Char} (hc : c = ',' ∨ c = ']' ∨ c = '\x7d') (h : Torn p (c :: s)) :
    Stops p := by
  rcases torn_cons h with rfl | ⟨rest, rfl, _⟩
  · nofun
  · rcases hc with rfl | rfl | rfl
    all_goals exact stops_cons (by decide) (by decide) (by decide) (by decide) _

theorem stops_torn_items {items : List Value}
    (h : Torn p (writeItems .compact depth items ++ [']'])) : Stops p := by
  cases items with
  | nil => exact stops_torn (Or.inr (Or.inl rfl)) h
  | cons item items =>
    rw [writeItems_cons] at h
    exact stops_torn (Or.inl rfl) h

theorem stops_torn_members {members : List (String × Value)}
    (h : Torn p (writeMembers .compact depth members ++ ['\x7d'])) : Stops p := by
  cases members with
  | nil => exact stops_torn (Or.inr (Or.inr rfl)) h
  | cons member members =>
    rw [writeMembers_cons] at h
    exact stops_torn (Or.inl rfl) h

/-! ## The end of the characters -/

theorem complains_readValue_nil (fuel : Nat) : Complains (readValue fuel []) := by
  cases fuel with
  | zero => exact ⟨_, _, rfl⟩
  | succ fuel => exact ⟨_, _, rfl⟩

theorem complains_readItems_nil (fuel : Nat) : Complains (readItems fuel []) := by
  cases fuel with
  | zero => exact ⟨_, _, rfl⟩
  | succ fuel => exact complains_bind (complains_readValue_nil fuel)

theorem complains_readMembers_nil (fuel : Nat) : Complains (readMembers fuel []) := by
  cases fuel with
  | zero => exact ⟨_, _, rfl⟩
  | succ fuel => exact ⟨_, _, rfl⟩

/-- Behind an item the reader asks for a comma or the end of the array. -/
theorem complains_behind_item {item : Value} (h : readValue fuel p = .ok (item, [])) :
    Complains (readItems (fuel + 1) p) := by
  rw [readItems, h]
  exact ⟨_, _, rfl⟩

theorem complains_later_item {item : Value} (h : readValue fuel p = .ok (item, ',' :: s))
    (hlater : Complains (readItems fuel (skip s))) : Complains (readItems (fuel + 1) p) := by
  obtain ⟨what, remaining, hlater⟩ := hlater
  rw [readItems, h]
  exact ⟨what, remaining, by
    simp only [bind, Except.bind, skip_cons (show isGap ',' = false from rfl), hlater]⟩

/-- Behind the value of a member the reader asks for a comma or the end of the object. -/
theorem complains_behind_member {name : String} {value : Value}
    (h : readValue fuel (skip s) = .ok (value, [])) :
    Complains (readMembers (fuel + 1) (writeString false name ++ ':' :: s)) := by
  refine ⟨.comma, 0, ?_⟩
  simp only [writeString, List.cons_append, List.append_assoc, List.nil_append, readMembers,
    readString_written, bind, Except.bind, skip_cons (show isGap ':' = false from rfl), h]
  rfl

/-- Behind the name of a member the reader asks for a colon. -/
theorem complains_behind_name {name : String} :
    Complains (readMembers (fuel + 1) (writeString false name)) := by
  have hname : ∀ opening, readString opening (name.toList.flatMap (escaped false) ++ ['"']) =
      .ok (name, []) := fun opening => readString_written opening name []
  refine ⟨.colon, 0, ?_⟩
  simp only [writeString, List.cons_append, readMembers, hname, bind, Except.bind]
  rfl

/-- An array is complained about with its items. -/
theorem complains_array (hend : ∀ rest, skip s ≠ ']' :: rest)
    (h : Complains (readItems fuel (skip s))) : Complains (readValue (fuel + 1) ('[' :: s)) := by
  rw [readValue]
  split
  · rename_i rest hskip
    exact absurd hskip (hend rest)
  · exact complains_bind h

theorem complains_object (hend : ∀ rest, skip s ≠ '\x7d' :: rest)
    (h : Complains (readMembers fuel (skip s))) :
    Complains (readValue (fuel + 1) ('\x7b' :: s)) := by
  rw [readValue]
  split
  · rename_i rest hskip
    exact absurd hskip (hend rest)
  · exact complains_bind h

/-! ## Torn values -/

mutual

/-- **What is left of a value** is complained about, or it is what is left of a whole number. -/
theorem torn_readValue (value : Value) (depth fuel : Nat) {p : List Char} (hv : value.Plain)
    (hfuel : 2 * p.length + 1 ≤ fuel) (h : Torn p (write .compact depth value)) :
    Complains (readValue fuel p) ∨
      (∃ n, value = .integer n) ∧ ∃ n, readValue fuel p = .ok (.integer n, []) := by
  obtain ⟨fuel, rfl⟩ : ∃ less, fuel = less + 1 := ⟨fuel - 1, by omega⟩
  cases value with
  | null =>
    change Torn p ('n' :: "ull".toList) at h
    exact Or.inl (torn_word h (by decide) (by decide) fuel)
  | bool b =>
    cases b with
    | true =>
      change Torn p ('t' :: "rue".toList) at h
      exact Or.inl (torn_word h (by decide) (by decide) fuel)
    | false =>
      change Torn p ('f' :: "alse".toList) at h
      exact Or.inl (torn_word h (by decide) (by decide) fuel)
  | integer n =>
    rcases torn_signedDecimal hv h fuel with hcomplains | hnumber
    · exact Or.inl hcomplains
    · exact Or.inr ⟨⟨n, rfl⟩, hnumber⟩
  | real literal => exact hv.elim
  | string text =>
    rcases torn_cons h with rfl | ⟨rest, rfl, hrest⟩
    · exact Or.inl ⟨_, _, rfl⟩
    · exact Or.inl (complains_bind (torn_readString _ hrest))
  | array items =>
    cases items with
    | nil =>
      rcases torn_pair h with rfl | rfl
      · exact Or.inl ⟨_, _, rfl⟩
      · exact Or.inl (complains_bind (complains_readItems_nil fuel))
    | cons item items =>
      rw [write_array] at h
      rcases torn_cons h with rfl | ⟨rest, rfl, hrest⟩
      · exact Or.inl ⟨_, _, rfl⟩
      · rw [Value.Plain, Value.PlainItems] at hv
        have hskip := skip_torn_write hv.1 hrest
        refine Or.inl (complains_array ?_ ?_)
        · -- the first item does not end the array
          obtain ⟨c, more, hwrite, _, hne⟩ := write_cons .compact (depth + 1) hv.1
          rw [itemsText, hwrite] at hrest
          rintro tail htail
          rcases torn_cons hrest with rfl | ⟨_, rfl, _⟩
          · cases htail
          · rw [hskip] at htail
            exact hne (List.cons.inj htail).1
        · rw [hskip]
          exact torn_readItems item items (depth + 1) fuel hv.1 hv.2
            (by rw [List.length_cons] at hfuel; omega) hrest
  | object members =>
    cases members with
    | nil =>
      rcases torn_pair h with rfl | rfl
      · exact Or.inl ⟨_, _, rfl⟩
      · exact Or.inl (complains_bind (complains_readMembers_nil fuel))
    | cons member members =>
      obtain ⟨name, value⟩ := member
      rw [write_object] at h
      rcases torn_cons h with rfl | ⟨rest, rfl, hrest⟩
      · exact Or.inl ⟨_, _, rfl⟩
      · rw [Value.Plain, Value.PlainMembers] at hv
        have hskip : skip rest = rest := skip_torn (show isGap '"' = false from rfl) hrest
        refine Or.inl (complains_object ?_ ?_)
        · rintro tail htail
          rcases torn_cons hrest with rfl | ⟨_, rfl, _⟩
          · cases htail
          · rw [hskip] at htail
            cases htail
        · rw [hskip]
          exact torn_readMembers name value members (depth + 1) fuel hv.2.1 hv.2.2
            (by rw [List.length_cons] at hfuel; omega) hrest
termination_by fuel

theorem torn_readItems (item : Value) (items : List Value) (depth fuel : Nat) {p : List Char}
    (hv : item.Plain) (hvs : Value.PlainItems items) (hfuel : 2 * p.length + 2 ≤ fuel)
    (h : Torn p (itemsText depth item items)) : Complains (readItems fuel p) := by
  obtain ⟨fuel, rfl⟩ : ∃ less, fuel = less + 1 := ⟨fuel - 1, by omega⟩
  rcases torn_append h with hitem | ⟨rest, rfl, hrest⟩
  · -- the item itself is torn
    rcases torn_readValue item depth fuel hv (by omega) hitem with hcomplains | ⟨_, n, hn⟩
    · exact complains_bind hcomplains
    · exact complains_behind_item hn
  · rw [List.length_append] at hfuel
    have hwhole := readValue_write Layout.regular_compact item depth fuel rest hv (by omega)
      (stops_torn_items hrest)
    cases items with
    | nil =>
      -- only the end of the array is missing
      obtain rfl := torn_singleton hrest
      exact complains_behind_item hwhole
    | cons next items =>
      rw [writeItems_cons] at hrest
      rcases torn_cons hrest with rfl | ⟨later, rfl, hlater⟩
      · exact complains_behind_item hwhole
      · -- a later item is torn
        refine complains_later_item hwhole ?_
        rw [skip_torn_write hvs.1 hlater]
        exact torn_readItems next items depth fuel hvs.1 hvs.2
          (by rw [List.length_cons] at hfuel; omega) hlater
termination_by fuel

theorem torn_readMembers (name : String) (value : Value) (members : List (String × Value))
    (depth fuel : Nat) {p : List Char} (hv : value.Plain) (hvs : Value.PlainMembers members)
    (hfuel : 2 * p.length + 2 ≤ fuel) (h : Torn p (membersText depth name value members)) :
    Complains (readMembers fuel p) := by
  obtain ⟨fuel, rfl⟩ : ∃ less, fuel = less + 1 := ⟨fuel - 1, by omega⟩
  rcases torn_append h with hname | ⟨behind, rfl, hbehind⟩
  · -- the name is torn
    rcases torn_cons hname with rfl | ⟨rest, rfl, hrest⟩
    · exact ⟨_, _, rfl⟩
    · exact complains_bind (torn_readString _ hrest)
  rcases torn_cons hbehind with rfl | ⟨s, rfl, hs⟩
  · rw [List.append_nil]
    exact complains_behind_name
  have hskip := skip_torn_write hv hs
  rw [List.length_append, List.length_cons] at hfuel
  rcases torn_append hs with hvalue | ⟨rest, rfl, hrest⟩
  · -- its value is torn
    rcases torn_readValue value depth fuel hv (by omega) hvalue with
      ⟨what, remaining, hstop⟩ | ⟨_, n, hn⟩
    · exact ⟨what, remaining, readMembers_refused name (by rw [hskip, hstop])⟩
    · exact complains_behind_member (by rw [hskip, hn])
  · rw [List.length_append] at hfuel
    have hwhole := readValue_write Layout.regular_compact value depth fuel rest hv (by omega)
      (stops_torn_members hrest)
    rw [← hskip] at hwhole
    cases members with
    | nil =>
      -- only the end of the object is missing
      obtain rfl := torn_singleton hrest
      exact complains_behind_member hwhole
    | cons member members =>
      obtain ⟨next, later⟩ := member
      rw [writeMembers_cons] at hrest
      rcases torn_cons hrest with rfl | ⟨more, rfl, hmore⟩
      · exact complains_behind_member hwhole
      · -- a later member is torn
        have hgap : skip more = more := skip_torn (show isGap '"' = false from rfl) hmore
        obtain ⟨what, remaining, hstop⟩ := torn_readMembers next later members depth fuel hvs.1
          hvs.2 (by rw [List.length_cons] at hfuel; omega) hmore
        exact ⟨what, remaining, readMembers_refused_later name hwhole
          (skip_cons (show isGap ',' = false from rfl) more) (by rw [hgap, hstop])⟩
termination_by fuel

end

/-- **What is left of a written object is not JSON**, and is refused as such. -/
theorem read_torn {members : List (String × Value)} (hv : (Value.object members).Plain)
    (h : Torn p (write .compact 0 (.object members))) :
    ∃ what place, read p = .error (.malformed what place) := by
  have hskip : skip p = p := by
    rw [← List.append_nil (write .compact 0 (.object members))] at h
    exact skip_torn_write hv h
  rcases torn_readValue (.object members) 0 (2 * p.length + 2) hv (by omega) h with
    ⟨what, remaining, hstop⟩ | ⟨⟨n, hn⟩, _⟩
  · refine ⟨what, Place.behind (p.take (p.length - remaining)), ?_⟩
    rw [read, readDocument, hskip, hstop]
    rfl
  · cases hn

end LockPrefetch.Json
