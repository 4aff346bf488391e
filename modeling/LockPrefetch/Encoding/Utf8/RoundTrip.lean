import LockPrefetch.Encoding.Utf8

/-! # Reading what UTF-8 writes

Decoding the octets of a text gives the text back. The step is a single character: the octets
that encode it are read as that character, whatever comes behind them (`start_char`), because
its lead octet tells their number and the bits of the others are put together again. -/

set_option autoImplicit false

namespace LockPrefetch.Encoding.Utf8

/-! ## Octets -/

theorem toNat_ofNat {n : Nat} (h : n < 256) : (UInt8.ofNat n).toNat = n := by
  simp [Nat.mod_eq_of_lt h]

theorem ofNat_lt_iff {n : Nat} (h : n < 256) (k : UInt8) : UInt8.ofNat n < k ↔ n < k.toNat := by
  rw [UInt8.lt_iff_toNat_lt, toNat_ofNat h]

theorem continues_ofNat : ∀ n < 64, continues (UInt8.ofNat (n + 128)) = true := by decide

theorem tail_ofNat : ∀ n < 64, tail (UInt8.ofNat (n + 128)) = n := by decide

/-- The second of three octets fits unless it spells a shorter form or a surrogate. -/
theorem second3_ofNat (pass : Bool) {n m : Nat} (hn : n < 16) (hm : m < 64)
    (low : n = 0 → 32 ≤ m) (high : n = 13 → m < 32) :
    second3 pass (UInt8.ofNat (n + 224)) (UInt8.ofNat (m + 128)) = true := by
  have e0 : UInt8.ofNat (n + 224) = 0xe0 ↔ n = 0 := by
    rw [← UInt8.toNat_inj, toNat_ofNat (by omega)]; simp
  have ed : UInt8.ofNat (n + 224) = 0xed ↔ n = 13 := by
    rw [← UInt8.toNat_inj, toNat_ofNat (by omega)]; simp
  have a0 : 0xa0 ≤ UInt8.ofNat (m + 128) ↔ 32 ≤ m := by
    rw [UInt8.le_iff_toNat_le, toNat_ofNat (by omega)]; simp
  have b0 : UInt8.ofNat (m + 128) < 0xa0 ↔ m < 32 := by
    rw [UInt8.lt_iff_toNat_lt, toNat_ofNat (by omega)]; simp
    omega
  simp only [second3, continues_ofNat m hm, Bool.true_and, Bool.and_eq_true, Bool.or_eq_true,
    bne_iff_ne, ne_eq, e0, ed, decide_eq_true_eq, a0, b0]
  omega

/-- The second of four octets fits unless it spells a shorter form or leaves the range. -/
theorem second4_ofNat {n m : Nat} (hn : n < 8) (hm : m < 64)
    (low : n = 0 → 16 ≤ m) (high : n = 4 → m < 16) :
    second4 (UInt8.ofNat (n + 240)) (UInt8.ofNat (m + 128)) = true := by
  have e0 : UInt8.ofNat (n + 240) = 0xf0 ↔ n = 0 := by
    rw [← UInt8.toNat_inj, toNat_ofNat (by omega)]; simp
  have e4 : UInt8.ofNat (n + 240) = 0xf4 ↔ n = 4 := by
    rw [← UInt8.toNat_inj, toNat_ofNat (by omega)]; simp
  have a0 : 0x90 ≤ UInt8.ofNat (m + 128) ↔ 16 ≤ m := by
    rw [UInt8.le_iff_toNat_le, toNat_ofNat (by omega)]; simp
  have b0 : UInt8.ofNat (m + 128) < 0x90 ↔ m < 16 := by
    rw [UInt8.lt_iff_toNat_lt, toNat_ofNat (by omega)]; simp
    omega
  simp only [second4, continues_ofNat m hm, Bool.true_and, Bool.and_eq_true, Bool.or_eq_true,
    bne_iff_ne, ne_eq, e0, e4, decide_eq_true_eq, a0, b0]
  omega

/-! ## Characters -/

/-- The octets behind a character are passed over. -/
theorem decodeFrom_behind (pass : Bool) (offset : Nat) (xs rest : Bytes) :
    decodeFrom pass offset xs.length (xs ++ rest) =
      decodeFrom pass (offset + xs.length) 0 rest := by
  induction xs generalizing offset with
  | nil => rfl
  | cons x xs ih => simp [decodeFrom, ih, Nat.add_assoc, Nat.add_comm 1]

/-- The octets of a character begin with it. -/
theorem start_char (pass : Bool) (c : Char) (rest : Bytes) :
    ∃ a behind, String.utf8EncodeChar c = a :: behind ∧
      start pass a (behind ++ rest) = .character c behind.length := by
  have valid : c.val.toNat < 0xd800 ∨ (0xdfff < c.val.toNat ∧ c.val.toNat < 0x110000) := c.valid
  have self : Char.ofNat c.val.toNat = c := Char.ofNat_toNat c
  unfold String.utf8EncodeChar
  generalize c.val.toNat = v at *
  dsimp only
  split
  · -- one octet
    have h1 := ofNat_lt_iff (show v < 256 by omega) 0x80
    refine ⟨_, _, rfl, ?_⟩
    simp [start, h1, toNat_ofNat (show v < 256 by omega), self]
    omega
  · split
    · -- two octets, where no second octet is forbidden
      refine ⟨_, _, rfl, ?_⟩
      have hb : v / 64 % 32 + 192 < 256 := by omega
      simp only [start, ofNat_lt_iff hb]
      rw [if_neg (by simp), if_neg (by simp; omega), if_pos (by simp; omega)]
      simp only [List.cons_append, List.nil_append, startOfTwo,
        continues_ofNat _ (show v % 64 < 64 by omega), tail_ofNat _ (show v % 64 < 64 by omega),
        if_true, toNat_ofNat hb, List.length_cons, List.length_nil]
      rw [show (v / 64 % 32 + 192) % 32 * 64 + v % 64 = v by omega, self]
    · split
      · -- three octets, of which the second one rules out surrogates and longer forms
        refine ⟨_, _, rfl, ?_⟩
        have hb : v / 4096 % 16 + 224 < 256 := by omega
        have hs := second3_ofNat pass (n := v / 4096 % 16) (m := v / 64 % 64) (by omega) (by omega)
          (by omega) (by omega)
        simp only [start, ofNat_lt_iff hb]
        rw [if_neg (by simp), if_neg (by simp), if_neg (by simp), if_pos (by simp; omega)]
        simp only [List.cons_append, List.nil_append, startOfThree, hs, Bool.and_true, if_true,
          continues_ofNat _ (show v % 64 < 64 by omega),
          tail_ofNat _ (show v % 64 < 64 by omega), tail_ofNat _ (show v / 64 % 64 < 64 by omega),
          toNat_ofNat hb, List.length_cons, List.length_nil]
        rw [show (v / 4096 % 16 + 224) % 16 * 4096 + v / 64 % 64 * 64 + v % 64 = v by omega,
          character, if_neg (by omega), self]
      · -- four octets
        refine ⟨_, _, rfl, ?_⟩
        have hb : v / 262144 % 8 + 240 < 256 := by omega
        have hs := second4_ofNat (n := v / 262144 % 8) (m := v / 4096 % 64) (by omega) (by omega)
          (by omega) (by omega)
        simp only [start, ofNat_lt_iff hb]
        rw [if_neg (by simp), if_neg (by simp), if_neg (by simp), if_neg (by simp),
          if_pos (by simp; omega)]
        simp only [List.cons_append, List.nil_append, startOfFour, hs, if_true,
          continues_ofNat _ (show v % 64 < 64 by omega),
          continues_ofNat _ (show v / 64 % 64 < 64 by omega),
          tail_ofNat _ (show v % 64 < 64 by omega), tail_ofNat _ (show v / 64 % 64 < 64 by omega),
          tail_ofNat _ (show v / 4096 % 64 < 64 by omega),
          toNat_ofNat hb, List.length_cons, List.length_nil]
        rw [show (v / 262144 % 8 + 240) % 8 * 262144 + v / 4096 % 64 * 4096 + v / 64 % 64 * 64 +
          v % 64 = v by omega, self]

/-- Reading gives back what was written. -/
theorem decodeFrom_encode (pass : Bool) (offset : Nat) (text : List Char) :
    decodeFrom pass offset 0 (encode text) = .ok text := by
  induction text generalizing offset with
  | nil => rfl
  | cons c rest ih =>
    obtain ⟨a, behind, octets, first⟩ := start_char pass c (encode rest)
    have split : encode (c :: rest) = a :: (behind ++ encode rest) := by
      simp [encode, octets]
    rw [split, decodeFrom, first]
    simp [decodeFrom_behind, ih, Except.map]

@[simp] theorem decode_encode (text : List Char) : decode (encode text) = .ok text :=
  decodeFrom_encode false 0 text

theorem encode_append (a b : List Char) : encode (a ++ b) = encode a ++ encode b :=
  List.flatMap_append

/-- An octet of the lower half stands for itself: it spells a character of ASCII, and is part of
no other one. -/
theorem toNat_of_mem_utf8EncodeChar {c : Char} {a : UInt8} (h : a ∈ String.utf8EncodeChar c)
    (hlow : a < 0x80) : c.toNat = a.toNat := by
  have hbound : c.val.toNat < 0x110000 := by
    have valid : c.val.toNat < 0xd800 ∨ (0xdfff < c.val.toNat ∧ c.val.toNat < 0x110000) := c.valid
    omega
  have hlow' : a.toNat < 0x80 := UInt8.lt_iff_toNat_lt.1 hlow
  show c.val.toNat = a.toNat
  unfold String.utf8EncodeChar at h
  generalize c.val.toNat = v at *
  dsimp only at h
  split at h
  · rw [List.mem_singleton.1 h, toNat_ofNat (by omega)]
  · -- the octets of longer characters have their highest bit set
    exfalso
    have hhigh : ∀ n, 128 ≤ n → n < 256 → a ≠ UInt8.ofNat n := by
      rintro n hn hn' rfl
      rw [toNat_ofNat hn'] at hlow'
      omega
    split at h
    · simp only [List.mem_cons, List.not_mem_nil, or_false] at h
      rcases h with h | h <;> exact hhigh _ (by omega) (by omega) h
    · split at h
      · simp only [List.mem_cons, List.not_mem_nil, or_false] at h
        rcases h with h | h | h <;> exact hhigh _ (by omega) (by omega) h
      · simp only [List.mem_cons, List.not_mem_nil, or_false] at h
        rcases h with h | h | h | h <;> exact hhigh _ (by omega) (by omega) h

/-- Characters that are no control characters take no octets of control characters. -/
theorem not_mem_encode {text : List Char} (h : ∀ c ∈ text, 0x20 ≤ c.toNat) {a : UInt8}
    (ha : a < 0x20) : a ∉ encode text := by
  intro hmem
  obtain ⟨c, hc, hoctet⟩ := List.mem_flatMap.1 hmem
  have hsame := toNat_of_mem_utf8EncodeChar hoctet (UInt8.lt_trans ha (by decide))
  have hlow : a.toNat < 0x20 := UInt8.lt_iff_toNat_lt.1 ha
  have := h c hc
  omega

/-! ## Octets added to a text -/

theorem startOfTwo_append {a : UInt8} {rest : Bytes} {c : Char} {behind : Nat}
    (h : startOfTwo a rest = .character c behind) (more : Bytes) :
    startOfTwo a (rest ++ more) = .character c behind ∧ behind ≤ rest.length := by
  cases rest with
  | nil => cases h
  | cons b rest =>
    simp only [startOfTwo, List.cons_append] at h ⊢
    refine ⟨h, ?_⟩
    split at h
    · cases h
      simp
    · cases h

theorem startOfThree_append {pass : Bool} {a : UInt8} {rest : Bytes} {c : Char} {behind : Nat}
    (h : startOfThree pass a rest = .character c behind) (more : Bytes) :
    startOfThree pass a (rest ++ more) = .character c behind ∧ behind ≤ rest.length := by
  unfold startOfThree at h
  split at h
  · cases h
  · split at h <;> cases h
  · refine ⟨by simpa only [startOfThree, List.cons_append] using h, ?_⟩
    split at h
    · cases h
      simp
    · split at h <;> cases h

theorem startOfFour_append {a : UInt8} {rest : Bytes} {c : Char} {behind : Nat}
    (h : startOfFour a rest = .character c behind) (more : Bytes) :
    startOfFour a (rest ++ more) = .character c behind ∧ behind ≤ rest.length := by
  unfold startOfFour at h
  split at h
  · cases h
  · split at h <;> cases h
  · split at h
    · split at h <;> cases h
    · cases h
  · refine ⟨by simpa only [startOfFour, List.cons_append] using h, ?_⟩
    split at h
    · split at h
      · split at h
        · cases h
          simp
        · cases h
      · cases h
    · cases h

/-- A character has all its octets, and those behind them do not matter. -/
theorem start_append {pass : Bool} {a : UInt8} {rest : Bytes} {c : Char} {behind : Nat}
    (h : start pass a rest = .character c behind) (more : Bytes) :
    start pass a (rest ++ more) = .character c behind ∧ behind ≤ rest.length := by
  unfold start at h ⊢
  by_cases h80 : a < 0x80
  · rw [if_pos h80] at h ⊢
    cases h
    exact ⟨rfl, Nat.zero_le _⟩
  rw [if_neg h80] at h ⊢
  by_cases hc2 : a < 0xc2
  · rw [if_pos hc2] at h
    cases h
  rw [if_neg hc2] at h ⊢
  by_cases he0 : a < 0xe0
  · rw [if_pos he0] at h ⊢
    exact startOfTwo_append h more
  rw [if_neg he0] at h ⊢
  by_cases hf0 : a < 0xf0
  · rw [if_pos hf0] at h ⊢
    exact startOfThree_append h more
  rw [if_neg hf0] at h ⊢
  by_cases hf5 : a < 0xf5
  · rw [if_pos hf5] at h ⊢
    exact startOfFour_append h more
  · rw [if_neg hf5] at h
    cases h

/-- Octets that follow a text are read on their own. -/
theorem decodeFrom_append {pass : Bool} {xs : Bytes} {offset behind : Nat} {text : List Char}
    (h : decodeFrom pass offset behind xs = .ok text) (hbehind : behind ≤ xs.length)
    (more : Bytes) :
    decodeFrom pass offset behind (xs ++ more) =
      (decodeFrom pass (offset + xs.length) 0 more).map (text ++ ·) := by
  induction xs generalizing offset behind text with
  | nil =>
    obtain rfl : behind = 0 := by simpa using hbehind
    cases h
    simp only [List.nil_append, List.length_nil, Nat.add_zero]
    cases decodeFrom pass offset 0 more <;> rfl
  | cons x xs ih =>
    have hoffset : offset + (x :: xs).length = offset + 1 + xs.length := by
      rw [List.length_cons]
      omega
    rw [hoffset, List.cons_append]
    cases behind with
    | succ behind =>
      rw [decodeFrom] at h ⊢
      exact ih h (by simpa using hbehind)
    | zero =>
      rw [decodeFrom] at h ⊢
      cases hstart : start pass x xs with
      | broken length reason => simp [hstart] at h
      | character c behind =>
        -- the character is whole, so that the added octets are not part of it
        obtain ⟨hsame, hle⟩ := start_append hstart more
        rw [hstart] at h
        cases hrest : decodeFrom pass (offset + 1) behind xs with
        | error fault => simp [hrest, Except.map] at h
        | ok read =>
          simp only [hrest, Except.map, Except.ok.injEq] at h
          subst h
          simp only [hsame, ih hrest hle]
          cases decodeFrom pass (offset + 1 + xs.length) 0 more <;> rfl

/-- **A text can be written behind octets that are text.** -/
theorem decode_append {data : Bytes} {text : List Char} (h : decode data = .ok text)
    (more : List Char) : decode (data ++ encode more) = .ok (text ++ more) := by
  rw [decode, decodeFrom_append h (Nat.zero_le _), decodeFrom_encode]
  rfl

end LockPrefetch.Encoding.Utf8
