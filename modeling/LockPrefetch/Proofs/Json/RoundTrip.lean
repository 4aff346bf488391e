import LockPrefetch.Proofs.Json.Strings
import LockPrefetch.Proofs.Text.Number

/-! # Reading JSON that was written

Whatever layout a value is written in, reading gives the value back (`read_write_append`), if its
whole numbers have at most 4300 digits, no object names a member twice and it holds no other
numbers (`Value.Plain`). The induction reads a value in front of any characters that cannot
prolong a number (`Stops`), with fuel for each character of its text. -/

set_option autoImplicit false

namespace LockPrefetch.Json

variable {layout : Layout}

/-! ## Gaps -/

theorem skip_append {gap : List Char} (hgap : ∀ c ∈ gap, isGap c = true) (s : List Char) :
    skip (gap ++ s) = skip s :=
  List.dropWhile_append_of_pos hgap

theorem skip_cons {c : Char} (h : isGap c = false) (s : List Char) : skip (c :: s) = c :: s :=
  List.dropWhile_cons_of_neg (by simp [h])

theorem isGap_digit {c : Char} (h : c.isDigit = true) : isGap c = false := by
  rw [Bool.eq_false_iff]
  intro hgap
  simp only [isGap, Bool.or_eq_true, beq_iff_eq] at hgap
  rcases hgap with ((rfl | rfl) | rfl) | rfl <;> cases h

/-- A layout whose gaps hold nothing but a comma or a colon and white space. -/
structure Layout.Regular (layout : Layout) : Prop where
  itemGap : ∃ gap, layout.itemGap = ',' :: gap ∧ ∀ c ∈ gap, isGap c = true
  nameGap : ∃ gap, layout.nameGap = ':' :: gap ∧ ∀ c ∈ gap, isGap c = true

theorem Layout.regular_compact : Layout.compact.Regular :=
  ⟨⟨[], rfl, nofun⟩, ⟨[], rfl, nofun⟩⟩

theorem Layout.regular_line : Layout.line.Regular :=
  ⟨⟨[' '], rfl, List.all_eq_true.1 rfl⟩, ⟨[' '], rfl, List.all_eq_true.1 rfl⟩⟩

theorem Layout.regular_indented : Layout.indented.Regular :=
  ⟨⟨[], rfl, nofun⟩, ⟨[' '], rfl, List.all_eq_true.1 rfl⟩⟩

theorem isGap_of_mem_newLine {depth : Nat} : ∀ c ∈ layout.newLine depth, isGap c = true := by
  intro c hc
  unfold Layout.newLine at hc
  split at hc
  · cases hc
  · rcases List.mem_cons.1 hc with rfl | hc
    · rfl
    · rw [List.eq_of_mem_replicate hc]
      rfl

/-! ## Numbers -/

/-- Characters that cannot prolong a number in front of them. -/
def Stops (rest : List Char) : Prop :=
  ∀ c ∈ rest.head?, c.isDigit = false ∧ c ≠ '.' ∧ c ≠ 'e' ∧ c ≠ 'E'

theorem stops_cons {c : Char} (h : c.isDigit = false) (hdot : c ≠ '.') (he : c ≠ 'e')
    (hE : c ≠ 'E') (rest : List Char) : Stops (c :: rest) := by
  intro d hd
  obtain rfl : c = d := by simpa using hd
  exact ⟨h, hdot, he, hE⟩

theorem stops_gap {gap : List Char} (hgap : ∀ c ∈ gap, isGap c = true) {rest : List Char}
    (hrest : Stops rest) : Stops (gap ++ rest) := by
  cases gap with
  | nil => exact hrest
  | cons c gap =>
      have hc := hgap c (by simp)
      simp only [isGap, Bool.or_eq_true, beq_iff_eq] at hc
      rcases hc with ((rfl | rfl) | rfl) | rfl
      all_goals exact stops_cons (by decide) (by decide) (by decide) (by decide) _

theorem fractionPart_of_stops {rest : List Char} (h : Stops rest) :
    fractionPart rest = ([], rest) := by
  unfold fractionPart
  split
  · exact absurd rfl (h '.' rfl).2.1
  · rfl

theorem exponentPart_of_stops {rest : List Char} (h : Stops rest) :
    exponentPart rest = ([], rest) := by
  unfold exponentPart
  split
  · rfl
  · rename_i e more
    have he := h e rfl
    rw [if_neg (by simp [he])]

/-- Digits that no zero leads are read up to where they stop. -/
theorem wholePart_of_stops {run rest : List Char} (hrun : ∀ c ∈ run, c.isDigit = true)
    (hlead : run.head? ≠ some '0') (h : Stops rest) : wholePart (run ++ rest) = (run, rest) := by
  have htake : (run ++ rest).takeWhile Char.isDigit = run := by
    rw [List.takeWhile_append_of_pos hrun]
    cases rest with
    | nil => simp
    | cons c more => simp [(h c rfl).1]
  have hdrop : (run ++ rest).dropWhile Char.isDigit = rest := by
    rw [List.dropWhile_append_of_pos hrun]
    cases rest with
    | nil => simp
    | cons c more => simp [(h c rfl).1]
  unfold wholePart
  split
  · rename_i more heq
    cases run with
    | nil =>
        rw [List.nil_append] at heq
        rw [heq] at h
        exact absurd (h '0' rfl).1 (by decide)
    | cons c tail =>
        cases heq
        exact absurd rfl hlead
  · rw [htake, hdrop]

/-- The digits of a number are read up to where they stop. -/
theorem wholePart_decimal (n : Nat) {rest : List Char} (h : Stops rest) :
    wholePart (Text.decimal n ++ rest) = (Text.decimal n, rest) := by
  by_cases hzero : n = 0
  · subst hzero
    rw [Text.decimal_of_lt (by omega)]
    rfl
  · exact wholePart_of_stops (Text.isDigit_of_mem_decimal n) (Text.head?_decimal hzero) h

/-- Whether a whole number has few enough digits to be read. -/
def Sized (n : Int) : Prop := (Text.decimal n.natAbs).length ≤ Text.maxDigits

theorem minusPart_digit {c : Char} (h : c.isDigit = true) (rest : List Char) :
    minusPart (c :: rest) = ([], c :: rest) := by
  unfold minusPart
  split
  · rename_i heq
    cases heq
    cases h
  · rfl

theorem decimal_cons (n : Nat) :
    ∃ c more, Text.decimal n = c :: more ∧ c.isDigit = true := by
  cases hd : Text.decimal n with
  | nil => exact absurd hd (Text.decimal_ne_nil n)
  | cons c more => exact ⟨c, more, rfl, Text.isDigit_of_mem_decimal n c (by simp [hd])⟩

theorem minusPart_decimal (n : Nat) (rest : List Char) :
    minusPart (Text.decimal n ++ rest) = ([], Text.decimal n ++ rest) := by
  obtain ⟨c, more, hd, hc⟩ := decimal_cons n
  rw [hd, List.cons_append, minusPart_digit hc]

/-- **A written whole number is read back.** -/
theorem readNumber_signedDecimal {n : Int} (hn : Sized n) {rest : List Char} (h : Stops rest) :
    readNumber (Text.signedDecimal n ++ rest) = .ok (.integer n, rest) := by
  have hempty : ∀ m, (Text.decimal m).isEmpty = false := by
    intro m
    simpa using Text.decimal_ne_nil m
  have hlength : ¬ Text.maxDigits < (Text.decimal n.natAbs).length := Nat.not_lt.2 hn
  cases n with
  | ofNat m =>
      have hlength : ¬ Text.maxDigits < (Text.decimal m).length := hlength
      unfold readNumber
      simp only [Text.signedDecimal, minusPart_decimal, wholePart_decimal m h, hempty,
        fractionPart_of_stops h, exponentPart_of_stops h, hlength, if_false, Text.ofDecimal_decimal]
      simp
  | negSucc m =>
      have hlength : ¬ Text.maxDigits < (Text.decimal (m + 1)).length := hlength
      unfold readNumber
      simp only [Text.signedDecimal, List.cons_append, minusPart, wholePart_decimal (m + 1) h,
        hempty, fractionPart_of_stops h, exponentPart_of_stops h, hlength, if_false,
        Text.ofDecimal_decimal]
      simp [Int.negSucc_eq]

/-! ## Values -/

mutual

/-- **A value that can be read back**: it holds no number but whole ones of at most 4300
digits, and no object names a member twice. -/
def Value.Plain : Value → Prop
  | .integer n => Sized n
  | .real _ => False
  | .array items => PlainItems items
  | .object members => (members.map Prod.fst).Nodup ∧ PlainMembers members
  | _ => True

def Value.PlainItems : List Value → Prop
  | [] => True
  | item :: rest => item.Plain ∧ PlainItems rest

def Value.PlainMembers : List (String × Value) → Prop
  | [] => True
  | (_, value) :: rest => value.Plain ∧ PlainMembers rest

end

/-- A constant is told by its first character. -/
theorem constant?_cons {c : Char} (h : c ∉ ['n', 't', 'f', 'N', 'I', '-']) (more : List Char) :
    constant? (c :: more) = none := by
  simp only [List.mem_cons, List.not_mem_nil, or_false, not_or] at h
  obtain ⟨hn, ht, hf, hN, hI, hminus⟩ := h
  simp [constant?, constants, Ne.symm hn, Ne.symm ht, Ne.symm hf, Ne.symm hN, Ne.symm hI,
    Ne.symm hminus]

theorem constant?_digit {c : Char} (h : c.isDigit = true) (more : List Char) :
    constant? (c :: more) = none := by
  refine constant?_cons ?_ more
  intro hmem
  simp only [List.mem_cons, List.not_mem_nil, or_false] at hmem
  rcases hmem with rfl | rfl | rfl | rfl | rfl | rfl <;> cases h

theorem constant?_signedDecimal (n : Int) (rest : List Char) :
    constant? (Text.signedDecimal n ++ rest) = none := by
  cases n with
  | ofNat m =>
      obtain ⟨c, more, hd, hc⟩ := decimal_cons m
      rw [Text.signedDecimal, hd, List.cons_append, constant?_digit hc]
  | negSucc m =>
      obtain ⟨c, more, hd, hc⟩ := decimal_cons (m + 1)
      have hI : 'I' ≠ c := by
        rintro rfl
        cases hc
      simp [Text.signedDecimal, hd, constant?, constants, hI]

theorem signedDecimal_cons (n : Int) :
    ∃ c more, Text.signedDecimal n = c :: more ∧ c ≠ '"' ∧ c ≠ '[' ∧ c ≠ '\x7b' := by
  cases n with
  | ofNat m =>
      obtain ⟨c, more, hd, hc⟩ := decimal_cons m
      refine ⟨c, more, hd, ?_, ?_, ?_⟩ <;> rintro rfl <;> cases hc
  | negSucc m => exact ⟨'-', _, rfl, by decide, by decide, by decide⟩

/-- A written value begins with a character that neither is white space nor ends an array. -/
theorem write_cons (layout : Layout) (depth : Nat) {v : Value} (hv : v.Plain) :
    ∃ c more, write layout depth v = c :: more ∧ isGap c = false ∧ c ≠ ']' := by
  cases v with
  | null => exact ⟨'n', _, rfl, rfl, by decide⟩
  | bool b => cases b <;> exact ⟨_, _, rfl, rfl, by decide⟩
  | integer n =>
      cases n with
      | ofNat m =>
          obtain ⟨c, more, hd, hc⟩ := decimal_cons m
          refine ⟨c, more, by rw [write, Text.signedDecimal, hd], isGap_digit hc, ?_⟩
          rintro rfl
          cases hc
      | negSucc m => exact ⟨'-', _, rfl, rfl, by decide⟩
  | real literal => exact hv.elim
  | string text => exact ⟨'"', _, rfl, rfl, by decide⟩
  | array items => cases items <;> exact ⟨'[', _, rfl, rfl, by decide⟩
  | object members =>
      cases members with
      | nil => exact ⟨'\x7b', _, rfl, rfl, by decide⟩
      | cons member rest =>
          obtain ⟨name, value⟩ := member
          exact ⟨'\x7b', _, rfl, rfl, by decide⟩

theorem stops_writeItems (hl : layout.Regular) (depth : Nat) (items : List Value)
    {rest : List Char} (hrest : Stops rest) : Stops (writeItems layout depth items ++ rest) := by
  cases items with
  | nil => exact hrest
  | cons item items =>
      obtain ⟨gap, hgap, _⟩ := hl.itemGap
      rw [writeItems, hgap]
      exact stops_cons (by decide) (by decide) (by decide) (by decide) _

theorem stops_writeMembers (hl : layout.Regular) (depth : Nat) (members : List (String × Value))
    {rest : List Char} (hrest : Stops rest) :
    Stops (writeMembers layout depth members ++ rest) := by
  cases members with
  | nil => exact hrest
  | cons member members =>
      obtain ⟨name, value⟩ := member
      obtain ⟨gap, hgap, _⟩ := hl.itemGap
      rw [writeMembers, hgap]
      exact stops_cons (by decide) (by decide) (by decide) (by decide) _

theorem stops_end {c : Char} (h : c = ']' ∨ c = '\x7d') (rest : List Char) :
    Stops (c :: rest) := by
  rcases h with rfl | rfl
  all_goals exact stops_cons (by decide) (by decide) (by decide) (by decide) _

mutual

/-- **A value is read back** in front of what cannot prolong it, with fuel for each of its
characters. -/
theorem readValue_write (hl : layout.Regular) (v : Value) (depth fuel : Nat) (rest : List Char)
    (hv : v.Plain) (hfuel : (write layout depth v).length ≤ fuel) (hrest : Stops rest) :
    readValue fuel (write layout depth v ++ rest) = .ok (v, rest) := by
  -- a written value has a character, so that there is fuel for one step
  obtain ⟨fuel, rfl⟩ : ∃ less, fuel = less + 1 := by
    obtain ⟨c, more, hw, _⟩ := write_cons layout depth hv
    rw [hw, List.length_cons] at hfuel
    exact ⟨fuel - 1, by omega⟩
  cases v with
  | null => simp [write, readValue, constant?, constants]
  | bool b => cases b <;> simp [write, readValue, constant?, constants]
  | integer n =>
      have hnone := constant?_signedDecimal n rest
      have hread := readNumber_signedDecimal hv hrest
      obtain ⟨c, more, hd, hquote, hbracket, hbrace⟩ := signedDecimal_cons n
      rw [write, hd, List.cons_append]
      rw [hd, List.cons_append] at hnone hread
      rw [readValue, hnone]
      · exact hread
      -- it begins like no string, array or object
      all_goals
        intro tail heq
        cases heq
        contradiction
  | real literal => exact hv.elim
  | string text =>
      simp only [write, writeString, List.cons_append, List.append_assoc, List.nil_append,
        readValue, readString_written]
      rfl
  | array items =>
      cases items with
      | nil => simp [write, readValue, skip_cons, isGap]
      | cons item items =>
          rw [Value.Plain, Value.PlainItems] at hv
          obtain ⟨c, more, hw, hc, hne⟩ := write_cons layout (depth + 1) hv.1
          have hread := readItems_write hl item items (depth + 1) fuel
            (layout.newLine depth) rest hv.1 hv.2 (by
              simp only [write, List.length_append, List.length_cons] at hfuel
              omega) isGap_of_mem_newLine
          simp only [write, List.cons_append, List.nil_append, List.append_assoc, readValue,
            skip_append isGap_of_mem_newLine, hw, skip_cons hc]
          simp only [hw, List.cons_append, List.append_assoc] at hread
          -- the first item does not end the array
          split
          · rename_i heq
            cases heq
            exact absurd rfl hne
          · rw [hread]
            rfl
  | object members =>
      cases members with
      | nil => simp [write, readValue, skip_cons, isGap]
      | cons member members =>
          obtain ⟨name, value⟩ := member
          rw [Value.Plain, Value.PlainMembers] at hv
          obtain ⟨hnodup, hvalue, hmembers⟩ := hv
          have hread := readMembers_write hl name value members (depth + 1) fuel
            (layout.newLine depth) rest hvalue hmembers (by
              simp only [write, List.length_append, List.length_cons] at hfuel
              omega) isGap_of_mem_newLine
          simp only [write, List.cons_append, List.nil_append, List.append_assoc, readValue,
            skip_append isGap_of_mem_newLine, writeString,
            skip_cons (show isGap '"' = false from rfl)]
          simp only [writeString, List.cons_append, List.nil_append, List.append_assoc] at hread
          split
          · rename_i heq
            cases heq
          · -- names are all different, so that no member replaces another one
            simp only [hread, bind, Except.bind, pure, Except.pure,
              Ordered.ofPairs_of_nodup hnodup]
termination_by fuel

theorem readItems_write (hl : layout.Regular) (item : Value) (items : List Value)
    (depth fuel : Nat) (gap rest : List Char) (hv : item.Plain) (hvs : Value.PlainItems items)
    (hfuel : (write layout depth item).length + (writeItems layout depth items).length + 1 ≤ fuel)
    (hgap : ∀ c ∈ gap, isGap c = true) :
    readItems fuel (write layout depth item ++ writeItems layout depth items ++
      (gap ++ ']' :: rest)) = .ok (item :: items, rest) := by
  obtain ⟨fuel, rfl⟩ : ∃ less, fuel = less + 1 := ⟨fuel - 1, by omega⟩
  have hstop : Stops (gap ++ ']' :: rest) := stops_gap hgap (stops_end (Or.inl rfl) rest)
  have hhead := readValue_write hl item depth fuel
    (writeItems layout depth items ++ (gap ++ ']' :: rest)) hv (by omega)
    (stops_writeItems hl depth items hstop)
  rw [readItems, List.append_assoc, hhead]
  cases items with
  | nil =>
      simp [writeItems, skip_append hgap, skip_cons, isGap, bind, Except.bind, pure, Except.pure]
  | cons next items =>
      obtain ⟨between, hcomma, hbetween⟩ := hl.itemGap
      obtain ⟨c, more, hw, hc, _⟩ := write_cons layout depth hvs.1
      have htail := readItems_write hl next items depth fuel gap rest hvs.1 hvs.2 (by
        simp only [writeItems, hcomma, List.length_append, List.length_cons] at hfuel
        omega) hgap
      simp only [writeItems, hcomma, List.cons_append, List.append_assoc, bind, Except.bind,
        skip_cons (show isGap ',' = false from rfl), skip_append hbetween,
        skip_append isGap_of_mem_newLine]
      simp only [hw, List.cons_append, List.append_assoc] at htail
      simp only [hw, List.cons_append, skip_cons hc, htail]
      rfl
termination_by fuel

theorem readMembers_write (hl : layout.Regular) (name : String) (value : Value)
    (members : List (String × Value)) (depth fuel : Nat) (gap rest : List Char)
    (hv : value.Plain) (hvs : Value.PlainMembers members)
    (hfuel : (write layout depth value).length + (writeMembers layout depth members).length + 1
      ≤ fuel)
    (hgap : ∀ c ∈ gap, isGap c = true) :
    readMembers fuel (writeString layout.asciiOnly name ++ layout.nameGap ++
      write layout depth value ++ writeMembers layout depth members ++ (gap ++ '\x7d' :: rest)) =
      .ok ((name, value) :: members, rest) := by
  obtain ⟨fuel, rfl⟩ : ∃ less, fuel = less + 1 := ⟨fuel - 1, by omega⟩
  obtain ⟨colonGap, hcolon, hcolonGap⟩ := hl.nameGap
  obtain ⟨c, more, hw, hc, _⟩ := write_cons layout depth hv
  have hstop : Stops (gap ++ '\x7d' :: rest) := stops_gap hgap (stops_end (Or.inr rfl) rest)
  have hvalue := readValue_write hl value depth fuel
    (writeMembers layout depth members ++ (gap ++ '\x7d' :: rest)) hv (by omega)
    (stops_writeMembers hl depth members hstop)
  simp only [hw, List.cons_append] at hvalue
  simp only [writeString, hcolon, hw, List.cons_append, List.append_assoc, List.nil_append,
    readMembers, readString_written, bind, Except.bind, skip_cons (show isGap ':' = false from rfl),
    skip_append hcolonGap, skip_cons hc, hvalue]
  cases members with
  | nil => simp [writeMembers, skip_append hgap, skip_cons, isGap, pure, Except.pure]
  | cons member members =>
      obtain ⟨nextName, next⟩ := member
      obtain ⟨between, hcomma, hbetween⟩ := hl.itemGap
      have htail := readMembers_write hl nextName next members depth fuel gap rest hvs.1 hvs.2 (by
        simp only [writeMembers, hcomma, List.length_append, List.length_cons] at hfuel
        omega) hgap
      simp only [writeString, List.cons_append, List.append_assoc, List.nil_append] at htail
      simp only [writeMembers, writeString, hcomma, List.cons_append, List.append_assoc,
        List.nil_append, skip_cons (show isGap ',' = false from rfl), skip_append hbetween,
        skip_append isGap_of_mem_newLine, skip_cons (show isGap '"' = false from rfl), htail]
      rfl
termination_by fuel

end

/-- **Reading gives back what was written**, in any regular layout, with white space behind it. -/
theorem read_write_append (hl : layout.Regular) {v : Value} (hv : v.Plain) (gap : List Char)
    (hgap : ∀ c ∈ gap, isGap c = true) : read (write layout 0 v ++ gap) = .ok v := by
  obtain ⟨c, more, hw, hc, _⟩ := write_cons layout 0 hv
  have hskip : skip (write layout 0 v ++ gap) = write layout 0 v ++ gap := by
    rw [hw, List.cons_append]
    exact skip_cons hc (more ++ gap)
  have hnothing : Stops [] := nofun
  have hstop : Stops gap := by simpa using stops_gap hgap hnothing
  have hend : skip gap = [] := by simpa [skip] using skip_append hgap []
  have hread := readValue_write hl v 0 (2 * (write layout 0 v ++ gap).length + 2) gap hv
    (by rw [List.length_append]; omega) hstop
  rw [read, readDocument, hskip, hread]
  simp only [bind, Except.bind, hend]
  rfl

/-- Reading gives back what was written, in any regular layout. -/
theorem read_write (hl : layout.Regular) {v : Value} (hv : v.Plain) :
    read (write layout 0 v) = .ok v := by
  have hread := read_write_append hl hv [] nofun
  rwa [List.append_nil] at hread

/-! ## Control characters -/

mutual

/-- **A value whose numbers are whole**: their digits are written for them. -/
def Value.Whole : Value → Prop
  | .real _ => False
  | .array items => WholeItems items
  | .object members => WholeMembers members
  | _ => True

def Value.WholeItems : List Value → Prop
  | [] => True
  | item :: rest => item.Whole ∧ WholeItems rest

def Value.WholeMembers : List (String × Value) → Prop
  | [] => True
  | (_, value) :: rest => value.Whole ∧ WholeMembers rest

end

theorem visible_of_mem_signedDecimal (n : Int) : ∀ c ∈ Text.signedDecimal n, 0x20 ≤ c.toNat := by
  have hdecimal : ∀ m, ∀ c ∈ Text.decimal m, 0x20 ≤ c.toNat := by
    intro m c hc
    have hdigit := Text.isDigit_of_mem_decimal m c hc
    simp only [Char.isDigit, Bool.and_eq_true, decide_eq_true_eq, ge_iff_le,
      UInt32.le_iff_toNat_le] at hdigit
    have hlow : 48 ≤ c.toNat := hdigit.1
    omega
  cases n with
  | ofNat m => exact hdecimal m
  | negSucc m =>
      intro c hc
      rcases List.mem_cons.1 hc with rfl | hc
      · decide
      · exact hdecimal _ c hc

/-- Characters that can be looked at one by one. -/
theorem visible_of_all {text : List Char} (h : text.all (0x20 ≤ ·.toNat) = true) :
    ∀ c ∈ text, 0x20 ≤ c.toNat := by
  intro c hc
  simpa using List.all_eq_true.1 h c hc

mutual

/-- No control character stands in a value that is written on one line. -/
theorem visible_of_mem_write (hindent : layout.indent = none)
    (hitem : ∀ c ∈ layout.itemGap, 0x20 ≤ c.toNat) (hname : ∀ c ∈ layout.nameGap, 0x20 ≤ c.toNat)
    (v : Value) (depth : Nat) (hv : v.Whole) : ∀ c ∈ write layout depth v, 0x20 ≤ c.toNat := by
  have hnew : ∀ depth, layout.newLine depth = [] := fun depth => by rw [Layout.newLine, hindent]
  cases v with
  | null =>
      rw [write]
      exact visible_of_all rfl
  | bool b =>
      cases b with
      | true => rw [write]; exact visible_of_all rfl
      | false => rw [write]; exact visible_of_all rfl
  | integer n =>
      intro c hc
      rw [write] at hc
      exact visible_of_mem_signedDecimal n c hc
  | real literal => exact hv.elim
  | string text =>
      intro c hc
      rw [write] at hc
      exact visible_of_mem_writeString text c hc
  | array items =>
      cases items with
      | nil => rw [write]; exact visible_of_all rfl
      | cons item items =>
          rw [Value.Whole, Value.WholeItems] at hv
          intro c hc
          simp only [write, hnew, List.cons_append, List.append_nil, List.mem_cons,
            List.mem_append, List.not_mem_nil, or_false, false_or] at hc
          rcases hc with rfl | (hc | hc) | rfl
          · decide
          · exact visible_of_mem_write hindent hitem hname item _ hv.1 c hc
          · exact visible_of_mem_writeItems hindent hitem hname items _ hv.2 c hc
          · decide
  | object members =>
      cases members with
      | nil => rw [write]; exact visible_of_all rfl
      | cons member members =>
          obtain ⟨name, value⟩ := member
          rw [Value.Whole, Value.WholeMembers] at hv
          intro c hc
          simp only [write, hnew, List.cons_append, List.append_nil, List.mem_cons,
            List.mem_append, List.not_mem_nil, or_false, false_or] at hc
          rcases hc with rfl | (((hc | hc) | hc) | hc) | rfl
          · decide
          · exact visible_of_mem_writeString name c hc
          · exact hname c hc
          · exact visible_of_mem_write hindent hitem hname value _ hv.1 c hc
          · exact visible_of_mem_writeMembers hindent hitem hname members _ hv.2 c hc
          · decide

theorem visible_of_mem_writeItems (hindent : layout.indent = none)
    (hitem : ∀ c ∈ layout.itemGap, 0x20 ≤ c.toNat) (hname : ∀ c ∈ layout.nameGap, 0x20 ≤ c.toNat)
    (items : List Value) (depth : Nat) (hv : Value.WholeItems items) :
    ∀ c ∈ writeItems layout depth items, 0x20 ≤ c.toNat := by
  have hnew : ∀ depth, layout.newLine depth = [] := fun depth => by rw [Layout.newLine, hindent]
  cases items with
  | nil => nofun
  | cons item items =>
      intro c hc
      simp only [writeItems, hnew, List.append_nil, List.mem_append] at hc
      rcases hc with (hc | hc) | hc
      · exact hitem c hc
      · exact visible_of_mem_write hindent hitem hname item _ hv.1 c hc
      · exact visible_of_mem_writeItems hindent hitem hname items _ hv.2 c hc

theorem visible_of_mem_writeMembers (hindent : layout.indent = none)
    (hitem : ∀ c ∈ layout.itemGap, 0x20 ≤ c.toNat) (hname : ∀ c ∈ layout.nameGap, 0x20 ≤ c.toNat)
    (members : List (String × Value)) (depth : Nat) (hv : Value.WholeMembers members) :
    ∀ c ∈ writeMembers layout depth members, 0x20 ≤ c.toNat := by
  have hnew : ∀ depth, layout.newLine depth = [] := fun depth => by rw [Layout.newLine, hindent]
  cases members with
  | nil => nofun
  | cons member members =>
      obtain ⟨name, value⟩ := member
      intro c hc
      simp only [writeMembers, hnew, List.append_nil, List.mem_append] at hc
      rcases hc with (((hc | hc) | hc) | hc) | hc
      · exact hitem c hc
      · exact visible_of_mem_writeString name c hc
      · exact hname c hc
      · exact visible_of_mem_write hindent hitem hname value _ hv.1 c hc
      · exact visible_of_mem_writeMembers hindent hitem hname members _ hv.2 c hc

end

/-- **No control character stands in a compact text.** -/
theorem visible_of_mem_compact {v : Value} (hv : v.Whole) :
    ∀ c ∈ write .compact 0 v, 0x20 ≤ c.toNat :=
  visible_of_mem_write rfl (visible_of_all rfl) (visible_of_all rfl) v 0 hv

end LockPrefetch.Json
