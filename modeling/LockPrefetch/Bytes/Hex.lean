import LockPrefetch.Bytes.Basic

/-! # Hexadecimal text

Two lower-case digits per octet, the high half first. Reading takes either letter case and
refuses an odd count of digits. -/

set_option autoImplicit false

namespace LockPrefetch.Hex

/-- The digit of a value below sixteen. -/
def digit (n : Nat) : Char :=
  if n < 10 then Char.ofNat (48 + n) else Char.ofNat (87 + n)

/-- The value of a hexadecimal digit in either letter case. -/
def value? (c : Char) : Option Nat :=
  if '0' ≤ c ∧ c ≤ '9' then some (c.toNat - 48)
  else if 'a' ≤ c ∧ c ≤ 'f' then some (c.toNat - 87)
  else if 'A' ≤ c ∧ c ≤ 'F' then some (c.toNat - 55)
  else none

/-- The lower-case digits of a byte string. -/
def digits (data : Bytes) : List Char :=
  data.flatMap fun b => [digit (b.toNat / 16), digit (b.toNat % 16)]

/-- A byte string as lower-case hexadecimal text. -/
def encode (data : Bytes) : String := String.ofList (digits data)

/-- The octets that pairs of digits stand for; refuses a foreign character or a single digit
left over. -/
def ofDigits? : List Char → Option Bytes
  | [] => some []
  | [_] => none
  | a :: b :: rest => do
    let high ← value? a
    let low ← value? b
    let more ← ofDigits? rest
    return UInt8.ofNat (16 * high + low) :: more

/-- Reads hexadecimal text. -/
def decode? (text : String) : Option Bytes := ofDigits? text.toList

/-- The number that a run of hexadecimal digits stands for. -/
def number? (text : List Char) : Option Nat :=
  text.foldlM (fun n c => (value? c).map (16 * n + ·)) 0

@[simp] theorem length_digits (data : Bytes) : (digits data).length = 2 * data.length := by
  induction data with
  | nil => rfl
  | cons b rest ih =>
    simp only [digits, List.flatMap_cons, List.length_append, List.length_cons] at *
    simp only [ih, List.length_nil]
    omega

theorem value?_digit : ∀ n < 16, value? (digit n) = some n := by decide

/-- Reading gives back what was written. -/
@[simp] theorem ofDigits?_digits (data : Bytes) : ofDigits? (digits data) = some data := by
  induction data with
  | nil => rfl
  | cons b rest ih =>
    have := b.toNat_lt
    have high : value? (digit (b.toNat / 16)) = some (b.toNat / 16) :=
      value?_digit _ (by omega)
    have low : value? (digit (b.toNat % 16)) = some (b.toNat % 16) :=
      value?_digit _ (by omega)
    have whole : 16 * (b.toNat / 16) + b.toNat % 16 = b.toNat := by omega
    have unfolded : digits (b :: rest) =
        digit (b.toNat / 16) :: digit (b.toNat % 16) :: digits rest := by
      simp [digits]
    simp only [unfolded, ofDigits?, high, low, ih, whole, Option.bind_eq_bind, Option.bind_some,
      UInt8.ofNat_toNat, Option.pure_def]

/-- **Distinct byte strings have distinct digits.** -/
theorem digits_inj {a b : Bytes} (h : digits a = digits b) : a = b := by
  have hread := ofDigits?_digits a
  rw [h, ofDigits?_digits] at hread
  exact (Option.some.inj hread).symm

theorem encode_inj {a b : Bytes} (h : encode a = encode b) : a = b :=
  digits_inj (String.ofList_injective h)

/-- No digit is a separator, a dot or a control character. -/
theorem digit_plain : ∀ n < 16, digit n ≠ '/' ∧ digit n ≠ '.' ∧ 0x20 ≤ (digit n).toNat ∧
    (digit n).toNat < 0x80 := by decide

theorem plain_of_mem_digits {data : Bytes} {c : Char} (h : c ∈ digits data) :
    c ≠ '/' ∧ c ≠ '.' ∧ 0x20 ≤ c.toNat ∧ c.toNat < 0x80 := by
  obtain ⟨b, _, hb⟩ := List.mem_flatMap.1 h
  have := b.toNat_lt
  simp only [List.mem_cons, List.not_mem_nil, or_false] at hb
  rcases hb with rfl | rfl
  · exact digit_plain _ (by omega)
  · exact digit_plain _ (by omega)

end LockPrefetch.Hex
