import LockPrefetch.Proofs.Integrity.Malformed

/-! # Canonical tokens

A digest has many tokens. The last digit of base64 text may hold bits that are left over, whole
groups of digits may be followed by padding, and options may follow the digits. One of the tokens
is canonical: nothing is left over in its digits, padding fills up their last group and no more,
and there are no options. It is the one that is written (`canonical_iff_token`), and whatever
options are added to it, it is read as the digest that it was written for
(`parse_token_options`). -/

set_option autoImplicit false

namespace LockPrefetch

namespace Base64

variable {text : List Char} {values : List Nat} {data : Bytes}

/-! ## Nothing left over -/

/-- The bits left over in the last digit of a short group. -/
def leftover : List Nat → Nat
  | _ :: _ :: _ :: _ :: rest => leftover rest
  | [_, _, c] => c % 4
  | [_, b] => b % 16
  | _ => 0

/-- Nothing is left over in the values of a byte string. -/
@[simp] theorem leftover_toValues (data : Bytes) : leftover (toValues data) = 0 := by
  fun_induction toValues data with
  | case1 a b c rest ih => exact ih
  | case2 a b => simp only [leftover]; omega
  | case3 a => simp only [leftover]; omega
  | case4 => rfl

/-- **Values in which nothing is left over are those of the octets that they spell.** -/
theorem toValues_ofValues (hsmall : ∀ n ∈ values, n < 64) (hgroup : values.length % 4 ≠ 1)
    (hleft : leftover values = 0) : toValues (ofValues values) = values := by
  fun_induction ofValues values with
  | case1 a b c d rest ih =>
    simp only [List.forall_mem_cons] at hsmall
    obtain ⟨ha, hb, hc, hd, hrest⟩ := hsmall
    have hmore : rest.length % 4 ≠ 1 := by
      simp only [List.length_cons] at hgroup
      omega
    rw [toValues, ih hrest hmore hleft]
    simp only [UInt8.toNat_ofNat', List.cons.injEq, and_true]
    omega
  | case2 a b c =>
    simp only [leftover] at hleft
    simp only [List.forall_mem_cons] at hsmall
    obtain ⟨ha, hb, hc, _⟩ := hsmall
    simp only [toValues, UInt8.toNat_ofNat', List.cons.injEq, and_true]
    omega
  | case3 a b =>
    simp only [leftover] at hleft
    simp only [List.forall_mem_cons] at hsmall
    obtain ⟨ha, hb, _⟩ := hsmall
    simp only [toValues, UInt8.toNat_ofNat', List.cons.injEq, and_true]
    omega
  | case4 values hlong _ _ =>
    -- a single value spells no octet, and is no group
    match values with
    | [] => rfl
    | [a] => simp at hgroup
    | [a, b] => simp_all
    | [a, b, c] => simp_all
    | a :: b :: c :: d :: rest => exact (hlong a b c d rest rfl).elim

/-! ## Canonical text -/

/-- **Canonical base64 text**: digits in which nothing is left over, and the padding that fills up
their last group. -/
def Canonical (text : List Char) : Prop :=
  ∃ values : List Nat, (∀ n ∈ values, n < 64) ∧ values.length % 4 ≠ 1 ∧ leftover values = 0 ∧
    text = values.map digit ++ padding values.length

/-- What is written is canonical. -/
theorem canonical_digits (data : Bytes) : Canonical (digits data) :=
  ⟨toValues data, toValues_lt data, length_toValues_mod data, leftover_toValues data, rfl⟩

/-- Whatever is canonical is written for some octets. -/
theorem exists_of_canonical (h : Canonical text) : ∃ data, text = digits data := by
  obtain ⟨values, hsmall, hgroup, hleft, rfl⟩ := h
  exact ⟨ofValues values, by rw [digits, toValues_ofValues hsmall hgroup hleft]⟩

theorem noMark_digits (data : Bytes) : '?' ∉ digits data :=
  fun hmem => (plain_of_mem_digits data _ hmem).1 rfl

end Base64

namespace Digest

variable {d : Digest} {token : String} {options : List Char}

/-! ## Tokens of one digest -/

/-- What may follow the digits of a token: nothing, or a question mark and anything. -/
def Options (options : List Char) : Prop := options = [] ∨ options.head? = some '?'

/-- **A canonical token**: a name, a dash and canonical digits. -/
def Canonical (token : String) : Prop :=
  ∃ name digits, token.toList = name ++ '-' :: digits ∧ '-' ∉ name ∧ Base64.Canonical digits

theorem toList_token (d : Digest) :
    d.token.toList = d.name.toList ++ '-' :: Base64.digits d.octets := by
  simp [token, Base64.encode]

/-- The name of a function holds no dash. -/
theorem Supported.noDash (h : d.Supported) : '-' ∉ d.name.toList := by
  obtain ⟨a, hname, _⟩ := h
  exact Hash.Algorithm.not_mem_of_ofName? hname (by decide)

theorem spelled_token (h : d.Supported) (hoptions : Options options) :
    Spelled (d.token ++ String.ofList options) d.name.toList (Base64.digits d.octets) :=
  ⟨⟨options, by simp [toList_token], hoptions⟩, h.noDash, Base64.noMark_digits _⟩

theorem nonempty_of_parse {name digits : List Char} (h : Spelled token name digits)
    (hparse : parse token = .ok d) : name ≠ [] ∧ digits ≠ [] := by
  obtain ⟨⟨options, htext, hoptions⟩, hdash, hmark⟩ := h
  unfold parse at hparse
  rw [htext, Text.cut_append hdash] at hparse
  simp only [Option.getD_some, cut_digits hmark hoptions] at hparse
  split at hparse
  · cases hparse
  · rename_i hparts
    simpa only [Bool.or_eq_true, List.isEmpty_iff, not_or] using hparts

/-- **Tokens that are spelled alike are read alike**, whatever options they have. -/
theorem parse_congr {other : String} {name digits : List Char} (h : Spelled token name digits)
    (hother : Spelled other name digits) (hparse : parse token = .ok d) : parse other = .ok d := by
  obtain ⟨hname, hdigits⟩ := nonempty_of_parse h hparse
  rw [parse_spelled h hname hdigits, algorithm] at hparse
  rw [parse_spelled hother hname hdigits, algorithm]
  cases hfound : Hash.Algorithm.ofName? (String.ofList name) with
  | none => simp [hfound, Except.bind] at hparse
  | some a =>
      -- the token itself is told by refusals alone
      simp only [hfound, Except.bind] at hparse ⊢
      split at hparse
      · cases hparse
      · split at hparse
        · cases hparse
        · split at hparse
          · simp_all
          · cases hparse

/-- Whatever options its token is given, a digest is read back. -/
theorem parse_token_options (h : d.Supported) (hoptions : Options options) :
    parse (d.token ++ String.ofList options) = .ok d := by
  have hplain : Spelled d.token d.name.toList (Base64.digits d.octets) := by
    simpa using spelled_token h (Or.inl rfl)
  exact parse_congr hplain (spelled_token h hoptions) (parse_token h)

/-- **A token is canonical exactly if it is the one that is written** for the digest that it is
read as. -/
theorem canonical_iff_token (h : parse token = .ok d) :
    Canonical token ↔ token = d.token := by
  constructor
  · rintro ⟨name, digits, htext, hdash, hcanonical⟩
    obtain ⟨data, rfl⟩ := Base64.exists_of_canonical hcanonical
    -- there are no options, so that all that follows the dash is read
    have hsays := says_of_parse h
    have hname := hsays.name
    have hdigits := hsays.digits
    rw [htext, Text.cut_append hdash] at hname hdigits
    rw [Option.getD_some, Text.cut_of_not_mem (Base64.noMark_digits data),
      Base64.decode?_digits] at hdigits
    refine String.toList_inj.1 ?_
    rw [htext, toList_token, hname, Option.some.inj hdigits]
  · rintro rfl
    exact ⟨_, _, toList_token d, (supported_of_parse h).noDash, Base64.canonical_digits d.octets⟩

end Digest

end LockPrefetch
