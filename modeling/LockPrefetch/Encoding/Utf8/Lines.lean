import LockPrefetch.Encoding.Utf8.RoundTrip
import LockPrefetch.Failure

/-! # UTF-8 by lines

An octet that continues no character cannot stand within one, so that a byte string in which it
stands is text exactly if what comes before it and what comes behind it are. In particular the
lines of a text are texts, and the other way round (`decode_lines`). Octets of the lower half
stand for themselves, and no other octets spell them (`not_mem_of_decode`). -/

set_option autoImplicit false

namespace LockPrefetch.Encoding.Utf8

variable {pass : Bool} {a x : UInt8} {rest more xs ys : Bytes} {c : Char} {offset behind : Nat}
  {text : List Char}

/-! ## Characters in front of an octet that continues none -/

theorem startOfTwo_of_append (hx : continues x = false)
    (h : startOfTwo a (rest ++ x :: more) = .character c behind) :
    startOfTwo a rest = .character c behind := by
  cases rest with
  | nil => simp [startOfTwo, hx] at h
  | cons b rest => simpa only [startOfTwo, List.cons_append] using h

theorem startOfThree_of_append (hx : continues x = false)
    (h : startOfThree pass a (rest ++ x :: more) = .character c behind) :
    startOfThree pass a rest = .character c behind := by
  have hsecond : ∀ pass, second3 pass a x = false := by simp [second3, hx]
  cases rest with
  | nil =>
    cases more with
    | nil => simp [startOfThree, hsecond] at h
    | cons y more => simp [startOfThree, hsecond] at h
  | cons b rest =>
    cases rest with
    | nil =>
      simp only [startOfThree, List.cons_append, List.nil_append, hx, Bool.and_false] at h
      split at h
      · contradiction
      · split at h <;> cases h
    | cons d rest => simpa only [startOfThree, List.cons_append] using h

theorem startOfFour_of_append (hx : continues x = false)
    (h : startOfFour a (rest ++ x :: more) = .character c behind) :
    startOfFour a rest = .character c behind := by
  have hsecond : second4 a x = false := by simp [second4, hx]
  have hmore : more = [] ∨ (∃ y, more = [y]) ∨ ∃ y z others, more = y :: z :: others := by
    rcases more with _ | ⟨y, _ | ⟨z, others⟩⟩ <;> simp
  cases rest with
  | nil =>
    rcases hmore with rfl | ⟨y, rfl⟩ | ⟨y, z, others, rfl⟩ <;> simp [startOfFour, hsecond] at h
  | cons b rest =>
    cases rest with
    | nil =>
      cases more with
      | nil =>
        simp only [startOfFour, List.cons_append, List.nil_append, hx] at h
        split at h <;> cases h
      | cons y more =>
        simp only [startOfFour, List.cons_append, List.nil_append, hx] at h
        split at h <;> cases h
    | cons d rest =>
      cases rest with
      | nil =>
        simp only [startOfFour, List.cons_append, List.nil_append, hx] at h
        split at h
        · split at h <;> cases h
        · cases h
      | cons e rest => simpa only [startOfFour, List.cons_append] using h

/-- A character ends in front of an octet that continues none. -/
theorem start_of_append (hx : continues x = false)
    (h : start pass a (rest ++ x :: more) = .character c behind) :
    start pass a rest = .character c behind := by
  unfold start at h ⊢
  by_cases h80 : a < 0x80
  · rwa [if_pos h80] at h ⊢
  rw [if_neg h80] at h ⊢
  by_cases hc2 : a < 0xc2
  · rwa [if_pos hc2] at h ⊢
  rw [if_neg hc2] at h ⊢
  by_cases he0 : a < 0xe0
  · rw [if_pos he0] at h ⊢
    exact startOfTwo_of_append hx h
  rw [if_neg he0] at h ⊢
  by_cases hf0 : a < 0xf0
  · rw [if_pos hf0] at h ⊢
    exact startOfThree_of_append hx h
  rw [if_neg hf0] at h ⊢
  by_cases hf5 : a < 0xf5
  · rw [if_pos hf5] at h ⊢
    exact startOfFour_of_append hx h
  · rw [if_neg hf5] at h
    cases h

/-- **What comes before an octet that continues no character** is text, if the whole is. -/
theorem decodeFrom_of_append (hx : continues x = false)
    (h : decodeFrom pass offset behind (xs ++ x :: more) = .ok text)
    (hbehind : behind ≤ xs.length) : ∃ before, decodeFrom pass offset behind xs = .ok before := by
  induction xs generalizing offset behind text with
  | nil => exact ⟨[], rfl⟩
  | cons y xs ih =>
    rw [List.cons_append] at h
    cases behind with
    | succ behind =>
      rw [decodeFrom] at h ⊢
      exact ih h (by simpa using hbehind)
    | zero =>
      rw [decodeFrom] at h ⊢
      cases hstart : start pass y (xs ++ x :: more) with
      | broken length reason => simp [hstart] at h
      | character c behind =>
        have hown := start_of_append hx hstart
        rw [hstart] at h
        obtain ⟨read, hrest, _⟩ := map_eq_ok_iff.1 h
        obtain ⟨before, hbefore⟩ := ih hrest (start_append hown []).2
        exact ⟨c :: before, by simp [hown, hbefore, Except.map]⟩

/-! ## Texts behind one another -/

/-- What is read does not depend on where it begins. -/
theorem decodeFrom_ok (h : decodeFrom pass offset behind xs = .ok text) (other : Nat) :
    decodeFrom pass other behind xs = .ok text := by
  induction xs generalizing offset behind text other with
  | nil => exact h
  | cons y xs ih =>
    cases behind with
    | succ behind =>
      rw [decodeFrom] at h ⊢
      exact ih h _
    | zero =>
      rw [decodeFrom] at h ⊢
      cases hstart : start pass y xs with
      | broken length reason => simp [hstart] at h
      | character c behind =>
        rw [hstart] at h
        obtain ⟨read, hrest, hread⟩ := map_eq_ok_iff.1 h
        exact map_eq_ok_iff.2 ⟨read, ih hrest (other + 1), hread⟩

/-- **Texts are read one after another.** -/
theorem decode_append_eq (h : decode xs = .ok text) {whole : List Char} :
    decode (xs ++ ys) = .ok whole ↔ ∃ after, decode ys = .ok after ∧ whole = text ++ after := by
  rw [decode, decodeFrom_append h (Nat.zero_le _)]
  constructor
  · intro hwhole
    obtain ⟨after, hafter, hsame⟩ := map_eq_ok_iff.1 hwhole
    exact ⟨after, decodeFrom_ok hafter 0, hsame.symm⟩
  · rintro ⟨after, hafter, hsame⟩
    exact map_eq_ok_iff.2 ⟨after, decodeFrom_ok hafter _, hsame.symm⟩

theorem decode_feed (rest : Bytes) (after : List Char) :
    decode (10 :: rest) = .ok after ↔ ∃ more, decode rest = .ok more ∧ after = '\n' :: more := by
  have hfeed : decode [10] = .ok ['\n'] := rfl
  exact decode_append_eq hfeed

/-- **Two lines are text** exactly if each of them is. -/
theorem decode_lines (xs ys : Bytes) (whole : List Char) :
    decode (xs ++ 10 :: ys) = .ok whole ↔
      ∃ before after, decode xs = .ok before ∧ decode ys = .ok after ∧
        whole = before ++ '\n' :: after := by
  constructor
  · intro h
    obtain ⟨before, hbefore⟩ := decodeFrom_of_append (by decide) h (Nat.zero_le _)
    obtain ⟨_, hbehind, rfl⟩ := (decode_append_eq hbefore).1 h
    obtain ⟨after, hafter, rfl⟩ := (decode_feed ys _).1 hbehind
    exact ⟨before, after, hbefore, hafter, rfl⟩
  · rintro ⟨before, after, hbefore, hafter, rfl⟩
    exact (decode_append_eq hbefore).2 ⟨_, (decode_feed ys _).2 ⟨after, hafter, rfl⟩, rfl⟩

/-- No octets, no characters. -/
theorem decode_eq_nil_iff : decode xs = .ok [] ↔ xs = [] := by
  constructor
  · intro h
    cases xs with
    | nil => rfl
    | cons y xs =>
      rw [decode, decodeFrom] at h
      split at h
      · obtain ⟨_, _, hnil⟩ := map_eq_ok_iff.1 h
        cases hnil
      · cases h
  · rintro rfl
    rfl

/-! ## Octets of the lower half -/

theorem toNat_of_valid {n : Nat} (h : n.isValidChar) : (Char.ofNat n).toNat = n := by
  rw [Char.ofNat, dif_pos h]
  rfl

/-- A value of the upper half is no character of the lower one, the null character apart. -/
theorem toNat_ofNat_of_le {n : Nat} (hn : 0x80 ≤ n) (hc : Char.ofNat n = c) (hpos : 0 < c.toNat) :
    0x80 ≤ c.toNat := by
  subst hc
  by_cases hvalid : n.isValidChar
  · rwa [toNat_of_valid hvalid]
  · rw [Char.ofNat, dif_neg hvalid] at hpos
    exact absurd hpos (by decide)

theorem startOfTwo_high (ha : 0xc2 ≤ a.toNat) (ha' : a.toNat < 0xe0) (hpos : 0 < c.toNat)
    (h : startOfTwo a rest = .character c behind) : 0x80 ≤ c.toNat := by
  unfold startOfTwo at h
  split at h
  · cases h
  · split at h
    · injection h with hc _
      exact toNat_ofNat_of_le (by omega) hc hpos
    · cases h

/-- The second octet rules out forms that are longer than they need to be. -/
theorem second3_low {b : UInt8} (ha : 0xe0 ≤ a.toNat) (h : second3 pass a b = true) :
    0xe1 ≤ a.toNat ∨ 0x20 ≤ tail b := by
  simp only [second3, continues, Bool.and_eq_true, Bool.or_eq_true, bne_iff_ne, decide_eq_true_eq,
    UInt8.le_iff_toNat_le, UInt8.lt_iff_toNat_lt, ne_eq, ← UInt8.toNat_inj] at h
  obtain ⟨⟨⟨_, hb⟩, hlead⟩, _⟩ := h
  have hvalues : (0xe0 : UInt8).toNat = 224 ∧ (0xa0 : UInt8).toNat = 160 ∧
      (0xc0 : UInt8).toNat = 192 := by decide
  unfold tail
  omega

theorem second4_low {b : UInt8} (ha : 0xf0 ≤ a.toNat) (h : second4 a b = true) :
    0xf1 ≤ a.toNat ∨ 0x10 ≤ tail b := by
  simp only [second4, continues, Bool.and_eq_true, Bool.or_eq_true, bne_iff_ne, decide_eq_true_eq,
    UInt8.le_iff_toNat_le, UInt8.lt_iff_toNat_lt, ne_eq, ← UInt8.toNat_inj] at h
  obtain ⟨⟨⟨_, hb⟩, hlead⟩, _⟩ := h
  have hvalues : (0xf0 : UInt8).toNat = 240 ∧ (0x90 : UInt8).toNat = 144 ∧
      (0xc0 : UInt8).toNat = 192 := by decide
  unfold tail
  omega

theorem startOfThree_high (ha : 0xe0 ≤ a.toNat) (ha' : a.toNat < 0xf0) (hpos : 0 < c.toNat)
    (h : startOfThree pass a rest = .character c behind) : 0x80 ≤ c.toNat := by
  unfold startOfThree at h
  split at h
  · cases h
  · split at h <;> cases h
  · split at h
    · rename_i hfits
      have hlow := second3_low ha (Bool.and_eq_true_iff.1 hfits).1
      injection h with hc _
      unfold character at hc
      split at hc
      · rw [← hc]
        decide
      · exact toNat_ofNat_of_le (by omega) hc hpos
    · split at h <;> cases h

theorem startOfFour_high (ha : 0xf0 ≤ a.toNat) (ha' : a.toNat < 0xf5) (hpos : 0 < c.toNat)
    (h : startOfFour a rest = .character c behind) : 0x80 ≤ c.toNat := by
  unfold startOfFour at h
  split at h
  · cases h
  · split at h <;> cases h
  · split at h
    · split at h <;> cases h
    · cases h
  · split at h
    · rename_i hfits
      have hlow := second4_low ha hfits
      split at h
      · split at h
        · injection h with hc _
          exact toNat_ofNat_of_le (by omega) hc hpos
        · cases h
      · cases h
    · cases h

/-- **A character of the lower half** is its octet. -/
theorem start_low (h : start pass a rest = .character c behind) (hpos : 0 < c.toNat)
    (hlow : c.toNat < 0x80) : a.toNat = c.toNat := by
  have hlt : ∀ k : UInt8, a < k ↔ a.toNat < k.toNat := fun k => UInt8.lt_iff_toNat_lt
  have hvalues : (0x80 : UInt8).toNat = 128 ∧ (0xc2 : UInt8).toNat = 194 ∧
      (0xe0 : UInt8).toNat = 224 ∧ (0xf0 : UInt8).toNat = 240 ∧ (0xf5 : UInt8).toNat = 245 := by
    decide
  simp only [start, hlt] at h
  split at h
  · rename_i hself
    injection h with hc _
    have hvalid : a.toNat.isValidChar := Or.inl (by omega)
    rw [← hc, toNat_of_valid hvalid]
  · split at h
    · cases h
    · split at h
      · exact absurd (startOfTwo_high (by omega) (by omega) hpos h) (by omega)
      · split at h
        · exact absurd (startOfThree_high (by omega) (by omega) hpos h) (by omega)
        · split at h
          · exact absurd (startOfFour_high (by omega) (by omega) hpos h) (by omega)
          · cases h

/-- **Without its octet a character of the lower half is not read.** -/
theorem not_mem_of_decodeFrom (hpos : 0 < c.toNat) (hlow : c.toNat < 0x80)
    (hxs : ∀ y ∈ xs, y.toNat ≠ c.toNat) (h : decodeFrom pass offset behind xs = .ok text) :
    c ∉ text := by
  induction xs generalizing offset behind text with
  | nil =>
    cases h
    exact List.not_mem_nil
  | cons y xs ih =>
    obtain ⟨hy, hrest⟩ := List.forall_mem_cons.1 hxs
    cases behind with
    | succ behind =>
      rw [decodeFrom] at h
      exact ih hrest h
    | zero =>
      rw [decodeFrom] at h
      cases hstart : start pass y xs with
      | broken length reason => simp [hstart] at h
      | character d behind =>
        rw [hstart] at h
        obtain ⟨read, hread, rfl⟩ := map_eq_ok_iff.1 h
        rw [List.mem_cons, not_or]
        refine ⟨?_, ih hrest hread⟩
        rintro rfl
        exact hy (start_low hstart hpos hlow)

/-- A byte string without line ends is text without line ends. -/
theorem not_mem_of_decode (h : decode xs = .ok text) (hfeed : 10 ∉ xs) (hreturn : 13 ∉ xs) :
    '\n' ∉ text ∧ '\r' ∉ text := by
  have hne : ∀ k : UInt8, k ∉ xs → ∀ y ∈ xs, y.toNat ≠ k.toNat := by
    intro k hk y hy hsame
    exact hk (UInt8.toNat_inj.1 hsame ▸ hy)
  exact ⟨not_mem_of_decodeFrom (by decide) (by decide) (hne 10 hfeed) h,
    not_mem_of_decodeFrom (by decide) (by decide) (hne 13 hreturn) h⟩

end LockPrefetch.Encoding.Utf8
