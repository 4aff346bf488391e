import LockPrefetch.Text.Decimal
import LockPrefetch.Text.Number
import Mathlib.Algebra.Ring.Nat

/-! # Decimal digits

The digits of a number spell it (`ofDecimal_decimal`), no zero leads them unless the number is
zero, and there are as many of them as the size of the number says (`length_decimal_le_iff`). -/

set_option autoImplicit false

namespace LockPrefetch.Text

/-! ## Single digits -/

theorem isDigit_decimalDigit : ∀ n < 10, (decimalDigit n).isDigit = true := by decide

theorem value_decimalDigit : ∀ n < 10, (decimalDigit n).toNat - 48 = n := by decide

theorem decimalDigit_ne_zero : ∀ n < 10, n ≠ 0 → decimalDigit n ≠ '0' := by decide

/-! ## Numbers -/

theorem decimal_of_lt {n : Nat} (h : n < 10) : decimal n = [decimalDigit n] := by
  rw [decimal, if_pos h]

theorem decimal_of_le {n : Nat} (h : 10 ≤ n) :
    decimal n = decimal (n / 10) ++ [decimalDigit (n % 10)] := by
  rw [decimal, if_neg (by omega)]

theorem isDigit_of_mem_decimal (n : Nat) : ∀ c ∈ decimal n, c.isDigit = true := by
  induction n using Nat.strongRecOn with
  | ind n ih =>
      by_cases h : n < 10
      · rw [decimal_of_lt h]
        intro c hc
        rw [List.mem_singleton.1 hc]
        exact isDigit_decimalDigit n h
      · rw [decimal_of_le (by omega)]
        intro c hc
        rcases List.mem_append.1 hc with hc | hc
        · exact ih (n / 10) (by omega) c hc
        · rw [List.mem_singleton.1 hc]
          exact isDigit_decimalDigit _ (by omega)

/-- **Digits spell their number.** -/
theorem ofDecimal_decimal (n : Nat) : ofDecimal (decimal n) = n := by
  induction n using Nat.strongRecOn with
  | ind n ih =>
      by_cases h : n < 10
      · rw [decimal_of_lt h, ofDecimal, List.foldl_cons, List.foldl_nil, value_decimalDigit n h]
        omega
      · have hrest : ofDecimal (decimal (n / 10)) = n / 10 := ih (n / 10) (by omega)
        rw [ofDecimal] at hrest
        rw [decimal_of_le (by omega), ofDecimal, List.foldl_append, hrest, List.foldl_cons,
          List.foldl_nil, value_decimalDigit _ (by omega)]
        omega

theorem decimal_ne_nil (n : Nat) : decimal n ≠ [] := by
  by_cases h : n < 10
  · simp [decimal_of_lt h]
  · simp [decimal_of_le (show 10 ≤ n by omega)]

/-- No zero leads the digits of a number that is not zero. -/
theorem head?_decimal {n : Nat} (h : n ≠ 0) : (decimal n).head? ≠ some '0' := by
  induction n using Nat.strongRecOn with
  | ind n ih =>
      by_cases hn : n < 10
      · rw [decimal_of_lt hn, List.head?_cons]
        intro heq
        exact decimalDigit_ne_zero n hn h (Option.some.inj heq)
      · have hrest := ih (n / 10) (by omega) (by omega)
        rw [decimal_of_le (by omega)]
        cases hdigits : decimal (n / 10) with
        | nil => exact absurd hdigits (decimal_ne_nil _)
        | cons c more => rwa [hdigits] at hrest

/-- A number has few digits if it is small. -/
theorem length_decimal_le_iff {n k : Nat} (hk : 0 < k) : (decimal n).length ≤ k ↔ n < 10 ^ k := by
  induction k generalizing n with
  | zero => omega
  | succ k ih =>
      rw [Nat.pow_succ]
      by_cases h : n < 10
      · have : 0 < 10 ^ k := Nat.pow_pos (by omega)
        simp only [decimal_of_lt h, List.length_singleton]
        omega
      · rw [decimal_of_le (by omega), List.length_append, List.length_singleton]
        by_cases hzero : k = 0
        · subst hzero
          have : 0 < (decimal (n / 10)).length := List.length_pos_iff.2 (decimal_ne_nil _)
          omega
        · have := ih (n := n / 10) (by omega)
          omega

end LockPrefetch.Text
