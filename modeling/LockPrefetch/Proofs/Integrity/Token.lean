import LockPrefetch.Bytes.Base64.RoundTrip
import LockPrefetch.Cache.Store

/-! # Tokens and verified content

A digest of a supported function is read back from its token (`parse_token`). Content that was
verified has the digest that its declaration denotes (`verify_eq_ok_iff`). -/

set_option autoImplicit false

namespace LockPrefetch

namespace Hash.Algorithm

/-- A name is matched letter by letter. -/
theorem name_of_ofName? {text : String} {a : Hash.Algorithm} (h : ofName? text = some a) :
    text.toList.map Char.toLower = a.name.toList := by
  have hfound := List.find?_some h
  exact (eq_of_beq hfound).symm

/-- A function is found under its name in any letter case, and under no other name. -/
theorem ofName?_eq_some_iff {text : String} {a : Hash.Algorithm} :
    ofName? text = some a ↔ text.toList.map Char.toLower = a.name.toList := by
  refine ⟨name_of_ofName?, fun h => ?_⟩
  have hlower : a.name.toList.map Char.toLower = a.name.toList := by
    cases a <;> decide
  have hsame : ofName? text = ofName? a.name := by rw [ofName?, ofName?, h, hlower]
  rw [hsame, ofName?_name]

/-- What is in the name of a function in no letter case is in no spelling of it. -/
theorem not_mem_of_ofName? {text : String} {a : Hash.Algorithm} (h : ofName? text = some a)
    {c : Char} (hc : ∀ b ∈ all, c.toLower ∉ b.name.toList) : c ∉ text.toList := by
  intro hmem
  refine hc a (mem_all a) ?_
  rw [← name_of_ofName? h]
  exact List.mem_map_of_mem hmem

theorem size_pos (a : Hash.Algorithm) : 16 ≤ a.size := by
  cases a <;> decide

end Hash.Algorithm

namespace Base64

theorem digit_plain : ∀ n < 64, digit n ≠ '?' ∧ (digit n).toNat < 0x80 := by decide

theorem plain_of_mem_digits (data : Bytes) : ∀ c ∈ digits data, c ≠ '?' ∧ c.toNat < 0x80 := by
  intro c hc
  rcases List.mem_append.1 hc with hc | hc
  · obtain ⟨n, hn, rfl⟩ := List.mem_map.1 hc
    exact digit_plain n (toValues_lt data n hn)
  · rw [List.eq_of_mem_replicate hc]
    decide

theorem digits_ne_nil {data : Bytes} (h : data ≠ []) : digits data ≠ [] := by
  intro hnil
  have hread := decode?_digits data
  rw [hnil] at hread
  cases hread
  exact h rfl

end Base64

namespace Digest

variable {d : Digest} {data : Bytes} {name token : String}

/-- A digest of a supported function. -/
def Supported (d : Digest) : Prop :=
  ∃ a, Hash.Algorithm.ofName? d.name = some a ∧ d.octets.length = a.size

/-- **A digest of data** under the function that its name stands for. -/
def Of (d : Digest) (data : Bytes) : Prop :=
  ∃ a, Hash.Algorithm.ofName? d.name = some a ∧ d.octets = a.digest data

theorem Of.supported (h : d.Of data) : d.Supported := by
  obtain ⟨a, hname, hoctets⟩ := h
  exact ⟨a, hname, by rw [hoctets, Hash.Algorithm.length_digest]⟩

theorem eq_of_fields {e : Digest} (hname : d.name = e.name) (hoctets : d.octets = e.octets) :
    d = e := by
  cases d
  cases e
  obtain rfl := hname
  obtain rfl := hoctets
  rfl

theorem compute_eq_ok_iff : compute data name = .ok d ↔ d.name = name ∧ d.Of data := by
  unfold compute algorithm Of
  constructor
  · intro h
    cases ha : Hash.Algorithm.ofName? name with
    | none => simp [ha, bind, Except.bind] at h
    | some a =>
        simp only [ha, bind, Except.bind, pure, Except.pure, Except.ok.injEq] at h
        subst h
        exact ⟨rfl, a, ha, rfl⟩
  · rintro ⟨rfl, a, ha, hoctets⟩
    simp [ha, bind, Except.bind, pure, Except.pure, ← hoctets]

/-- **What a token says**: the name in front of the dash, a supported function, and digits up to
a question mark that are decoded to as many octets as the function yields. -/
structure Says (token : String) (d : Digest) : Prop where
  name : d.name.toList = (Text.cut '-' token.toList).1
  supported : d.Supported
  digits : Base64.decode? (Text.cut '?' ((Text.cut '-' token.toList).2.getD [])).1 = some d.octets

theorem says_of_parse (h : parse token = .ok d) : Says token d := by
  unfold parse algorithm at h
  cases hcut : Text.cut '-' token.toList with
  | mk front encoded =>
      simp only [hcut] at h
      split at h
      · cases h
      · cases ha : Hash.Algorithm.ofName? (String.ofList front) with
        | none => simp [ha, bind, Except.bind] at h
        | some a =>
            simp only [ha, bind, Except.bind] at h
            split at h
            · cases h
            · split at h
              · cases h
              · rename_i octets hoctets
                split at h
                · rename_i hlength
                  cases h
                  exact ⟨by rw [hcut, String.toList_ofList], ⟨a, ha, hlength⟩,
                    by rw [hcut, hoctets]⟩
                · cases h

/-- What a token is read as is a digest of a supported function. -/
theorem supported_of_parse (h : parse token = .ok d) : d.Supported := (says_of_parse h).supported

/-- The name of a digest is kept as it was written in front of the dash. -/
theorem name_of_parse (h : parse token = .ok d) :
    d.name.toList = (Text.cut '-' token.toList).1 := (says_of_parse h).name

/-- **A token is read as the digest that it was written for.** -/
theorem parse_token (h : d.Supported) : parse d.token = .ok d := by
  obtain ⟨a, hname, hlength⟩ := h
  -- the name ends at the first dash, and the digits go on to the end of the token
  have hdash : '-' ∉ d.name.toList := Hash.Algorithm.not_mem_of_ofName? hname (by decide)
  have hfront : d.name.toList ≠ [] := by
    intro hnil
    have hlower := Hash.Algorithm.name_of_ofName? hname
    rw [hnil] at hlower
    cases a <;> simp [Hash.Algorithm.name] at hlower
  have hoctets : d.octets ≠ [] := by
    intro hnil
    have := a.size_pos
    rw [hnil, List.length_nil] at hlength
    omega
  have htoken : d.token.toList = d.name.toList ++ '-' :: Base64.digits d.octets := by
    simp [token, Base64.encode]
  have hquestion : '?' ∉ Base64.digits d.octets :=
    fun hmem => (Base64.plain_of_mem_digits _ _ hmem).1 rfl
  have hforeign : (Base64.digits d.octets).any (0x80 ≤ ·.toNat) = false := by
    rw [List.any_eq_false]
    intro c hc
    have := (Base64.plain_of_mem_digits _ c hc).2
    simpa using this
  unfold parse algorithm
  rw [htoken, Text.cut_append hdash]
  simp only [Option.getD_some, Text.cut_of_not_mem hquestion, String.ofList_toList, hname, bind,
    Except.bind, hforeign, Base64.decode?_digits, hlength, List.isEmpty_iff, Bool.or_eq_true,
    hfront, Base64.digits_ne_nil hoctets, or_self, if_false, if_true]
  simp

end Digest

namespace Store

variable {key url : String} {data : Bytes} {declared : Option String} {d : Digest}

/-- A declaration that denotes a digest; without one, any digest under the default name. -/
def Declares (declared : Option String) (d : Digest) : Prop :=
  match declared with
  | none => d.name = Digest.defaultName
  | some token => Digest.parse token = .ok d

/-- Without a declaration, the digest is that of the default function. -/
theorem verify_none : verify key url data none = .ok d ↔
    d.Of data ∧ d.name = Digest.defaultName := by
  rw [verify, and_comm, ← Digest.compute_eq_ok_iff]
  cases Digest.compute data Digest.defaultName with
  | error fault => simp only [mapError_error, reduceCtorEq]
  | ok e => simp only [mapError_ok, Except.ok.injEq]

/-- A declaration that is no digest verifies nothing. -/
theorem verify_of_fault {token : String} {fault : Digest.Fault}
    (h : Digest.parse token = .error fault) : verify key url data (some token) ≠ .ok d := by
  intro hverify
  simp only [verify, h] at hverify
  split at hverify <;> cases hverify

/-- A digest that is declared verifies the content that it is a digest of. -/
theorem verify_of_digest {token : String} {expected : Digest}
    (h : Digest.parse token = .ok expected) :
    verify key url data (some token) = .ok d ↔ d = expected ∧ d.Of data := by
  simp only [verify, h]
  constructor
  · intro hverify
    cases hcompute : Digest.compute data expected.name with
    | error fault => simp [hcompute, bind, Except.bind] at hverify
    | ok e =>
        obtain ⟨hname, hof⟩ := Digest.compute_eq_ok_iff.1 hcompute
        simp only [hcompute, mapError_ok, bind, Except.bind, pure, Except.pure] at hverify
        split at hverify
        · rename_i hsame
          cases hverify
          exact ⟨Digest.eq_of_fields hname hsame, hof⟩
        · cases hverify
  · rintro ⟨rfl, hof⟩
    simp [Digest.compute_eq_ok_iff.2 ⟨rfl, hof⟩, bind, Except.bind, pure, Except.pure]

/-- **Content is verified** with a digest exactly if that is a digest of the content and what
the declaration denotes. -/
theorem verify_eq_ok_iff : verify key url data declared = .ok d ↔
    d.Of data ∧ Declares declared d := by
  cases declared with
  | none => exact verify_none
  | some token =>
      cases hparse : Digest.parse token with
      | error fault =>
          refine ⟨fun h => absurd h (verify_of_fault hparse), ?_⟩
          rintro ⟨_, hdeclares⟩
          rw [Declares, hparse] at hdeclares
          cases hdeclares
      | ok expected =>
          rw [verify_of_digest hparse, Declares, hparse, Except.ok.injEq, and_comm, eq_comm]

end Store

end LockPrefetch
