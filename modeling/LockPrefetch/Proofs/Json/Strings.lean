import LockPrefetch.Encoding.Utf8.RoundTrip
import LockPrefetch.Json.Reader
import LockPrefetch.Json.Writer

/-! # Reading strings that were written

A character is written as it is, by a short escape or by one or two units; reading its escape
gives its units (`readUnits_escaped`), and the units of a text spell the text
(`ofUnits_units`). Hence a written string is read as the same text (`readString_written`),
whatever characters it holds, and no control character stands in it
(`visible_of_mem_writeString`). -/

set_option autoImplicit false

namespace LockPrefetch.Json

variable {asciiOnly : Bool}

/-! ## Units -/

theorem hexDigits_four {n : Nat} (h : n < 0x10000) :
    Text.hexDigits 4 n =
      [Hex.digit (n / 4096), Hex.digit (n / 256 % 16), Hex.digit (n / 16 % 16),
        Hex.digit (n % 16)] := by
  have hhigh : (UInt8.ofNat (n / 256 % 256)).toNat = n / 256 :=
    (Encoding.Utf8.toNat_ofNat (by omega)).trans (by omega)
  have hlow : (UInt8.ofNat (n % 256)).toNat = n % 256 := Encoding.Utf8.toNat_ofNat (by omega)
  simp only [Text.hexDigits, Bytes.bigEndian, Bytes.littleEndian, List.reverse_cons,
    List.reverse_nil, List.nil_append, List.cons_append, Hex.digits, List.flatMap_cons,
    List.flatMap_nil, hhigh, hlow, List.append_nil, Nat.reduceMod, List.drop_zero]
  rw [show n / 256 / 16 = n / 4096 by omega, show n % 256 / 16 = n / 16 % 16 by omega,
    show n % 256 % 16 = n % 16 by omega]

/-- An escaped unit is read as its number. -/
theorem unit?_hexDigits {n : Nat} (h : n < 0x10000) :
    unit? (Hex.digit (n / 4096)) (Hex.digit (n / 256 % 16)) (Hex.digit (n / 16 % 16))
      (Hex.digit (n % 16)) = some n := by
  simp only [unit?, Hex.number?, List.foldlM_cons, List.foldlM_nil, Option.bind_eq_bind,
    Hex.value?_digit _ (show n / 4096 < 16 by omega),
    Hex.value?_digit _ (show n / 256 % 16 < 16 by omega),
    Hex.value?_digit _ (show n / 16 % 16 < 16 by omega),
    Hex.value?_digit _ (show n % 16 < 16 by omega), Option.map_some, Option.bind_some,
    Option.pure_def, Option.some.injEq]
  omega

theorem readUnits_unitEscape (opening : Nat) {n : Nat} (h : n < 0x10000) {rest : List Char}
    (hrest : rest ≠ []) :
    readUnits opening (unitEscape n ++ rest) = withUnit n (readUnits opening rest) := by
  rw [unitEscape, hexDigits_four h]
  simp only [List.cons_append, List.nil_append, readUnits, unit?_hexDigits h]
  rw [if_neg (by simpa using hrest)]

theorem toNat_lt (c : Char) : c.toNat < 0x110000 := by
  have hvalid : c.toNat < 0xd800 ∨ (0xdfff < c.toNat ∧ c.toNat < 0x110000) := c.valid
  omega

/-- The units by which a character is written. -/
def units (asciiOnly : Bool) (c : Char) : List Nat :=
  if asciiOnly = true ∧ 0x10000 ≤ c.toNat then
    [0xd800 + (c.toNat - 0x10000) / 0x400, 0xdc00 + (c.toNat - 0x10000) % 0x400]
  else [c.toNat]

theorem units_of_lt {c : Char} (h : c.toNat < 0x10000) : units asciiOnly c = [c.toNat] :=
  if_neg fun hboth => Nat.not_le.2 h hboth.2

/-- Puts several units in front of what a step yields. -/
def withUnits (ns : List Nat) (step : Except Stop (List Nat × List Char)) :
    Except Stop (List Nat × List Char) :=
  ns.foldr withUnit step

/-- **A written character is read as its units.** -/
theorem readUnits_escaped (opening : Nat) (c : Char) {rest : List Char} (hrest : rest ≠ []) :
    readUnits opening (escaped asciiOnly c ++ rest) =
      withUnits (units asciiOnly c) (readUnits opening rest) := by
  have hshort : ∀ d e : Char, d.toNat = e.toNat → d = e := fun d e h => Char.toNat_inj.1 h
  -- seven short escapes, control characters, and then units or the character itself
  unfold escaped
  split
  · subst c
    simp [readUnits, shortEscape?, withUnits, units]
  split
  · subst c
    simp [readUnits, shortEscape?, withUnits, units]
  split
  · subst c
    simp [readUnits, shortEscape?, withUnits, units]
  split
  · subst c
    simp [readUnits, shortEscape?, withUnits, units]
  split
  · subst c
    simp [readUnits, shortEscape?, withUnits, units]
  split
  · rename_i h
    obtain rfl := hshort c (Char.ofNat 8) h
    simp [readUnits, shortEscape?, withUnits, units]
  split
  · rename_i h
    obtain rfl := hshort c (Char.ofNat 12) h
    simp [readUnits, shortEscape?, withUnits, units]
  split
  · rename_i h
    rw [readUnits_unitEscape opening (by omega) hrest, units_of_lt (by omega)]
    rfl
  rename_i _ hback _ _ _ _ _ hcontrol
  split
  · unfold characterEscape
    split
    · rename_i h
      rw [readUnits_unitEscape opening h hrest, units_of_lt h]
      rfl
    · rename_i hascii hlarge
      have hlast := toNat_lt c
      rw [List.append_assoc, readUnits_unitEscape opening (by omega) (by simp [unitEscape]),
        readUnits_unitEscape opening (by omega) hrest, units, if_pos ⟨hascii.1, by omega⟩]
      rfl
  · rename_i hascii
    have hself : units asciiOnly c = [c.toNat] := if_neg fun h => hascii ⟨h.1, by omega⟩
    simp [readUnits, hback, hcontrol, hself, withUnits]

/-! ## Texts -/

theorem readUnits_text (opening : Nat) (text rest : List Char) :
    readUnits opening (text.flatMap (escaped asciiOnly) ++ '"' :: rest) =
      .ok (text.flatMap (units asciiOnly), rest) := by
  induction text with
  | nil => simp [readUnits]
  | cons c text ih =>
      have hbehind : text.flatMap (escaped asciiOnly) ++ '"' :: rest ≠ [] := by simp
      rw [List.flatMap_cons, List.append_assoc, readUnits_escaped opening c hbehind, ih,
        List.flatMap_cons]
      induction units asciiOnly c with
      | nil => rfl
      | cons n ns ihn => rw [withUnits, List.foldr_cons, ← withUnits, ihn]; rfl

/-- No character is half of a surrogate pair. -/
theorem not_surrogate (c : Char) : ¬ (0xd800 ≤ c.toNat ∧ c.toNat < 0xe000) := by
  have hvalid : c.toNat < 0xd800 ∨ (0xdfff < c.toNat ∧ c.toNat < 0x110000) := c.valid
  omega

theorem character_toNat (c : Char) : Encoding.Utf8.character c.toNat = c := by
  rw [Encoding.Utf8.character, if_neg (not_surrogate c), Char.ofNat_toNat]

theorem ofUnits_toNat (c : Char) (ns : List Nat) : ofUnits (c.toNat :: ns) = c :: ofUnits ns := by
  cases ns with
  | nil => rw [ofUnits, ofUnits, character_toNat]
  | cons m ns =>
      have hhigh : Encoding.isHighSurrogate c.toNat = false := by
        have := not_surrogate c
        simp only [Encoding.isHighSurrogate, Bool.and_eq_false_iff, decide_eq_false_iff_not]
        omega
      rw [ofUnits, hhigh, Bool.false_and, if_neg (by simp), character_toNat]

/-- **The units of a text spell it.** -/
theorem ofUnits_units (asciiOnly : Bool) (text : List Char) :
    ofUnits (text.flatMap (units asciiOnly)) = text := by
  induction text with
  | nil => rfl
  | cons c text ih =>
      rw [List.flatMap_cons, units]
      split
      · rename_i hpair
        have hlast := toNat_lt c
        have hhigh : Encoding.isHighSurrogate (0xd800 + (c.toNat - 0x10000) / 0x400) = true := by
          simp only [Encoding.isHighSurrogate, Bool.and_eq_true, decide_eq_true_eq]
          omega
        have hlow : Encoding.isLowSurrogate (0xdc00 + (c.toNat - 0x10000) % 0x400) = true := by
          simp only [Encoding.isLowSurrogate, Bool.and_eq_true, decide_eq_true_eq]
          omega
        have hjoin : 0x10000 + (0xd800 + (c.toNat - 0x10000) / 0x400 - 0xd800) * 0x400 +
            (0xdc00 + (c.toNat - 0x10000) % 0x400 - 0xdc00) = c.toNat := by omega
        rw [List.cons_append, List.singleton_append, ofUnits, hhigh, hlow, Bool.and_self,
          if_pos rfl, Encoding.joinSurrogates, hjoin, Char.ofNat_toNat, ih]
      · rw [List.singleton_append, ofUnits_toNat, ih]

/-- **A written string is read as the same text.** -/
theorem readString_written (opening : Nat) (text : String) (rest : List Char) :
    readString opening (text.toList.flatMap (escaped asciiOnly) ++ '"' :: rest) =
      .ok (text, rest) := by
  rw [readString, readUnits_text]
  simp [Except.map, ofUnits_units]

/-! ## Control characters -/

theorem visible_of_mem_hexDigits (count n : Nat) :
    ∀ c ∈ Text.hexDigits count n, 0x20 ≤ c.toNat :=
  fun _ hc => (Hex.plain_of_mem_digits (List.mem_of_mem_drop hc)).2.2.1

theorem visible_of_mem_unitEscape (n : Nat) : ∀ c ∈ unitEscape n, 0x20 ≤ c.toNat := by
  intro c hc
  simp only [unitEscape, List.mem_cons] at hc
  rcases hc with rfl | rfl | hc
  · decide
  · decide
  · exact visible_of_mem_hexDigits 4 n c hc

/-- No control character stands in the escape of a character. -/
theorem visible_of_mem_escaped (d : Char) : ∀ c ∈ escaped asciiOnly d, 0x20 ≤ c.toNat := by
  have hpair : ∀ e : Char, 0x20 ≤ e.toNat → ∀ c ∈ ['\\', e], 0x20 ≤ c.toNat := by
    intro e he c hc
    simp only [List.mem_cons, List.not_mem_nil, or_false] at hc
    rcases hc with rfl | rfl
    · decide
    · exact he
  unfold escaped
  repeat' split
  all_goals first | exact hpair _ (by decide) | skip
  · exact visible_of_mem_unitEscape _
  · unfold characterEscape
    split
    · exact visible_of_mem_unitEscape _
    · intro c hc
      rcases List.mem_append.1 hc with hc | hc
      · exact visible_of_mem_unitEscape _ c hc
      · exact visible_of_mem_unitEscape _ c hc
  · intro c hc
    rw [List.mem_singleton.1 hc]
    omega

/-- **No control character stands in a written string.** -/
theorem visible_of_mem_writeString (text : String) :
    ∀ c ∈ writeString asciiOnly text, 0x20 ≤ c.toNat := by
  intro c hc
  simp only [writeString, List.cons_append, List.mem_cons, List.mem_append, List.mem_flatMap,
    List.not_mem_nil, or_false] at hc
  rcases hc with rfl | ⟨d, _, hd⟩ | rfl
  · decide
  · exact visible_of_mem_escaped d c hd
  · decide

end LockPrefetch.Json
