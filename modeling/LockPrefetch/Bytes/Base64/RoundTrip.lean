import LockPrefetch.Bytes.Base64

/-! # Reading what base64 writes

The strict reader gives back every byte string from its base64 text. Octets and six-bit values
correspond (`ofValues_toValues`), each value has a digit of its own, and the padding is the one
that the number of digits calls for. -/

set_option autoImplicit false

namespace LockPrefetch.Base64

theorem value?_digit : ∀ n < 64, value? (digit n) = some n := by decide

theorem digit_ne_pad : ∀ n < 64, (digit n != '=') = true := by decide

theorem toValues_lt (data : Bytes) : ∀ n ∈ toValues data, n < 64 := by
  fun_induction toValues data with
  | case1 a b c rest ih =>
    have := a.toNat_lt
    have := b.toNat_lt
    have := c.toNat_lt
    intro n hn
    simp only [List.mem_cons] at hn
    rcases hn with rfl | rfl | rfl | rfl | hn
    · omega
    · omega
    · omega
    · omega
    · exact ih n hn
  | case2 a b =>
    have := a.toNat_lt
    have := b.toNat_lt
    intro n hn
    simp only [List.mem_cons, List.not_mem_nil, or_false] at hn
    omega
  | case3 a =>
    have := a.toNat_lt
    intro n hn
    simp only [List.mem_cons, List.not_mem_nil, or_false] at hn
    omega
  | case4 => simp

/-- The values of a byte string spell it. -/
@[simp] theorem ofValues_toValues (data : Bytes) : ofValues (toValues data) = data := by
  fun_induction toValues data with
  | case1 a b c rest ih =>
    have ha : a.toNat / 4 * 4 + (a.toNat % 4 * 16 + b.toNat / 16) / 16 = a.toNat := by
      have := b.toNat_lt
      omega
    have hb : (a.toNat % 4 * 16 + b.toNat / 16) % 16 * 16 +
        (b.toNat % 16 * 4 + c.toNat / 64) / 4 = b.toNat := by
      have := b.toNat_lt
      have := c.toNat_lt
      omega
    have hc : (b.toNat % 16 * 4 + c.toNat / 64) % 4 * 64 + c.toNat % 64 = c.toNat := by
      have := c.toNat_lt
      omega
    rw [ofValues, ha, hb, hc, ih]
    simp
  | case2 a b =>
    have ha : a.toNat / 4 * 4 + (a.toNat % 4 * 16 + b.toNat / 16) / 16 = a.toNat := by
      have := b.toNat_lt
      omega
    have hb : (a.toNat % 4 * 16 + b.toNat / 16) % 16 * 16 + b.toNat % 16 * 4 / 4 = b.toNat := by
      have := b.toNat_lt
      omega
    rw [ofValues, ha, hb]
    simp
  | case3 a =>
    have ha : a.toNat / 4 * 4 + a.toNat % 4 * 16 / 16 = a.toNat := by omega
    rw [ofValues, ha]
    simp
  | case4 => rfl

theorem mapM_value?_digit {values : List Nat} (h : ∀ n ∈ values, n < 64) :
    (values.map digit).mapM value? = some values := by
  induction values with
  | nil => rfl
  | cons n rest ih =>
    have hn : value? (digit n) = some n := value?_digit n (h n (by simp))
    simp [hn, ih fun m hm => h m (by simp [hm])]

theorem length_toValues_mod (data : Bytes) : (toValues data).length % 4 ≠ 1 := by
  fun_induction toValues data with
  | case1 a b c rest ih =>
    simp only [List.length_cons]
    omega
  | case2 => simp
  | case3 => simp
  | case4 => simp

/-- The strict reader gives back what was written. -/
@[simp] theorem decode?_digits (data : Bytes) : decode? (digits data) = some data := by
  have digitsOnly : ∀ c ∈ (toValues data).map digit, (c != '=') = true := by
    intro c hc
    obtain ⟨n, hn, rfl⟩ := List.mem_map.1 hc
    exact digit_ne_pad n (toValues_lt data n hn)
  have fits : padsFit (toValues data).length
      ((4 - (toValues data).length % 4) % 4) = true := by
    have := length_toValues_mod data
    have : (toValues data).length % 4 < 4 := Nat.mod_lt _ (by omega)
    unfold padsFit
    split <;> simp_all
    omega
  have padsOnly : (padding (toValues data).length).dropWhile (· != '=') =
      padding (toValues data).length := by
    unfold padding
    cases (4 - (toValues data).length % 4) % 4 <;> simp [List.replicate_succ]
  have noDigits : (padding (toValues data).length).takeWhile (· != '=') = [] := by
    unfold padding
    cases (4 - (toValues data).length % 4) % 4 <;> simp [List.replicate_succ]
  unfold decode? digits
  rw [List.takeWhile_append_of_pos digitsOnly, List.dropWhile_append_of_pos digitsOnly,
    padsOnly, noDigits, List.append_nil, mapM_value?_digit (toValues_lt data)]
  simp [padding, fits]

end LockPrefetch.Base64
