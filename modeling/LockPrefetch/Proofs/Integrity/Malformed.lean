import LockPrefetch.Proofs.Cache.Storing

/-! # Tokens that are no digests

A token that is no digest is refused with an integrity error. A put that declares such a token
reports a mismatch, and leaves the file tree as it is; looking for the content of the token and
reading that content report the integrity error itself (`Proper`).

Two kinds of tokens get around the report (`Escapes`). A NUL character in the name stops the
search for its function, and digits beyond ASCII stop the reading of the digits, each with a
failure that has no diagnostic and comes up as it is from whatever the token is given to. The main
statement is that these are the only ones (`judged_token`). -/

set_option autoImplicit false

namespace LockPrefetch

namespace Digest

variable {token : String} {name digits : List Char} {fault : Fault} {failure : Failure}

/-! ## Spelling -/

/-- **A token is spelled** by a name, a dash and digits; options may follow behind a question
mark. -/
structure Spelled (token : String) (name digits : List Char) : Prop where
  text : ∃ options, token.toList = name ++ '-' :: (digits ++ options) ∧
    (options = [] ∨ options.head? = some '?')
  noDash : '-' ∉ name
  noMark : '?' ∉ digits

/-- Digits end at the first question mark. -/
theorem cut_digits (hmark : '?' ∉ digits) {options : List Char}
    (h : options = [] ∨ options.head? = some '?') :
    (Text.cut '?' (digits ++ options)).1 = digits := by
  cases options with
  | nil => rw [List.append_nil, Text.cut_of_not_mem hmark]
  | cons c rest =>
      have hc : c = '?' := by simpa using h
      rw [hc, Text.cut_append hmark]

/-- Whatever stands behind a dash is digits, and perhaps options. -/
theorem spelled_of_cut {encoded : List Char}
    (h : Text.cut '-' token.toList = (name, some encoded)) :
    Spelled token name (Text.cut '?' encoded).1 := by
  obtain ⟨htext, hdash⟩ := Text.eq_of_cut_some h
  cases hcut : Text.cut '?' encoded with
  | mk digits options =>
      cases options with
      | none =>
          obtain ⟨rfl, hmark⟩ := Text.eq_of_cut_none hcut
          exact ⟨⟨[], by rw [List.append_nil, htext], Or.inl rfl⟩, hdash, hmark⟩
      | some rest =>
          obtain ⟨rfl, hmark⟩ := Text.eq_of_cut_some hcut
          exact ⟨⟨'?' :: rest, htext, Or.inr rfl⟩, hdash, hmark⟩

/-- **A spelled token is read** by its name first, and by its digits then. -/
theorem parse_spelled (h : Spelled token name digits) (hname : name ≠ []) (hdigits : digits ≠ []) :
    parse token = (algorithm (String.ofList name) token).bind fun a =>
      if digits.any (0x80 ≤ ·.toNat) then .error .foreignDigits
      else
        match Base64.decode? digits with
        | none => .error (.notBase64 token)
        | some octets =>
          if octets.length = a.size then .ok ⟨String.ofList name, octets⟩
          else .error (.wrongLength token a.size octets.length) := by
  obtain ⟨⟨options, htext, hoptions⟩, hdash, hmark⟩ := h
  unfold parse
  rw [htext, Text.cut_append hdash]
  simp only [Option.getD_some, cut_digits hmark hoptions, List.isEmpty_iff, hname, hdigits,
    Bool.or_eq_true, or_self, if_false]
  rfl

/-- A token that is refused for more than its form is spelled. -/
theorem spelled_of_parse_error (h : parse token = .error fault) (hform : fault ≠ .malformed token) :
    ∃ name digits, Spelled token name digits ∧ name ≠ [] ∧ digits ≠ [] := by
  unfold parse at h
  cases hcut : Text.cut '-' token.toList with
  | mk front encoded =>
      simp only [hcut] at h
      split at h
      · cases h
        exact absurd rfl hform
      · rename_i hparts
        simp only [Bool.or_eq_true, List.isEmpty_iff, not_or] at hparts
        cases encoded with
        | none => exact absurd rfl hparts.2
        | some encoded => exact ⟨_, _, spelled_of_cut hcut, hparts⟩

/-! ## What gets around the report -/

/-- **The tokens whose refusal is not reported**, with the failure that comes up. -/
inductive Escapes (token : String) : Failure → Prop
  /-- There are digits, and the name holds a NUL character. -/
  | nulInName {name digits : List Char} (h : Spelled token name digits) (hdigits : digits ≠ [])
      (hnul : Char.ofNat 0 ∈ name) : Escapes token .nulInName
  /-- The name is that of a function, and a digit is beyond ASCII. -/
  | foreignDigits {name digits : List Char} {a : Hash.Algorithm} {c : Char}
      (h : Spelled token name digits)
      (hname : Hash.Algorithm.ofName? (String.ofList name) = some a) (hc : c ∈ digits)
      (hforeign : 0x80 ≤ c.toNat) : Escapes token .foreignDigits

/-- A fault is reported, or is one of the two that are not. -/
theorem toFailure_cases (fault : Fault) :
    (∃ report, fault.toFailure = .diagnosed report ∧ report.kind = .integrity) ∨
      fault = .foreignDigits ∨ fault = .nulInName := by
  cases fault with
  | foreignDigits => exact Or.inr (Or.inl rfl)
  | nulInName => exact Or.inr (Or.inr rfl)
  | _ => exact Or.inl ⟨_, rfl, rfl⟩

/-- A name with a NUL character is that of no function. -/
theorem ofName?_of_nul (h : Char.ofNat 0 ∈ name) :
    Hash.Algorithm.ofName? (String.ofList name) = none := by
  cases hfound : Hash.Algorithm.ofName? (String.ofList name) with
  | none => rfl
  | some a =>
      have hnul := Hash.Algorithm.not_mem_of_ofName? hfound (c := Char.ofNat 0) (by decide)
      rw [String.toList_ofList] at hnul
      exact absurd h hnul

theorem any_nul_iff : (name.any (·.toNat == 0)) = true ↔ Char.ofNat 0 ∈ name := by
  rw [List.any_eq_true]
  constructor
  · rintro ⟨c, hc, hzero⟩
    rwa [← eq_of_beq hzero, Char.ofNat_toNat]
  · intro hnul
    exact ⟨_, hnul, rfl⟩

theorem parse_of_escapes (h : Escapes token failure) :
    ∃ fault, parse token = .error fault ∧ fault.toFailure = failure := by
  cases h with
  | nulInName hspelled hdigits hnul =>
      refine ⟨.nulInName, ?_, rfl⟩
      rw [parse_spelled hspelled (List.ne_nil_of_mem hnul) hdigits, algorithm, ofName?_of_nul hnul]
      simp [Except.bind, unknown, any_nul_iff.2 hnul]
  | foreignDigits hspelled hname hc hforeign =>
      rename_i name digits a c
      have hfront : name ≠ [] := by
        rintro rfl
        cases hname
      have hany : digits.any (0x80 ≤ ·.toNat) = true :=
        List.any_eq_true.2 ⟨c, hc, by simpa using hforeign⟩
      refine ⟨.foreignDigits, ?_, rfl⟩
      rw [parse_spelled hspelled hfront (List.ne_nil_of_mem hc), algorithm, hname]
      simp [Except.bind, hany]

/-- A refusal that is not reported comes from a token that gets around the report. -/
theorem escapes_of_parse (h : parse token = .error fault)
    (hfault : fault = .foreignDigits ∨ fault = .nulInName) : Escapes token fault.toFailure := by
  have hform : fault ≠ .malformed token := by
    rcases hfault with rfl | rfl <;> nofun
  obtain ⟨name, digits, hspelled, hname, hdigits⟩ := spelled_of_parse_error h hform
  rw [parse_spelled hspelled hname hdigits, algorithm] at h
  cases hfound : Hash.Algorithm.ofName? (String.ofList name) with
  | none =>
      simp only [hfound, Except.bind, Except.error.injEq] at h
      unfold unknown at h
      split at h
      · rename_i hnul
        rw [← h]
        rw [String.toList_ofList] at hnul
        exact .nulInName hspelled hdigits (any_nul_iff.1 hnul)
      · subst h
        rcases hfault with h | h <;> cases h
  | some a =>
      simp only [hfound, Except.bind] at h
      split at h
      · rename_i hforeign
        obtain ⟨c, hc, hlarge⟩ := List.any_eq_true.1 hforeign
        cases h
        exact .foreignDigits hspelled hfound hc (by simpa using hlarge)
      · -- what is wrong with digits of ASCII is reported
        split at h
        · cases h
          rcases hfault with h | h <;> cases h
        · split at h
          · cases h
          · cases h
            rcases hfault with h | h <;> cases h

end Digest

namespace Store

open Digest (Escapes)

variable {store : Store} {tree : FileTree} {key url token : String} {data : Bytes}
  {fault : Digest.Fault} {failure refusal : Failure}

/-! ## What a store does with a token that is refused -/

/-- **A token is refused**: reading it, looking for its content and reading that content fail
with a failure, and a put that declares it fails with a refusal and changes nothing. -/
structure Refuses (store : Store) (tree : FileTree) (key url : String) (data : Bytes)
    (token : String) (failure refusal : Failure) : Prop where
  parse : (Digest.parse token).mapError Digest.Fault.toFailure = .error failure
  put : (store.put key url data (some token)).run tree = (.error refusal, tree)
  contains : store.contains tree token = .error failure
  read : store.read tree token = .error failure

/-- **What becomes of a token as it should**: it is a digest of a supported function, or it is
refused with an integrity error, and as a declaration with a mismatch that tells the token. -/
def Proper (token : String) : Prop :=
  (∃ d, Digest.parse token = .ok d ∧ d.Supported) ∨
  ∃ report : Diagnostic, report.kind = .integrity ∧
    ∀ (store : Store) (tree : FileTree) (key url : String) (data : Bytes),
      ∃ refusal : Diagnostic, refusal.kind = .integrityMismatch ∧
        Ordered.get? "expected" refusal.context = some token ∧
        store.Refuses tree key url data token (.diagnosed report) (.diagnosed refusal)

/-- **What becomes of a token**: what should, unless it gets around the report; then the failure
comes up as it is, from every use of the token. -/
structure Judged (token : String) : Prop where
  proper_iff : Proper token ↔ ∀ failure, ¬ Escapes token failure
  escapes : ∀ failure, Escapes token failure →
    ∀ (store : Store) (tree : FileTree) (key url : String) (data : Bytes),
      store.Refuses tree key url data token failure failure

/-- The token is what the report on a declaration tells as expected. -/
theorem expected_malformedDeclaration (key url token : String) (report : Diagnostic) :
    Ordered.get? "expected" (malformedDeclaration key url token report).context = some token := by
  simp only [malformedDeclaration, List.foldl_cons, List.foldl_nil, Ordered.get?_put, if_true]

/-- A token that is refused is refused everywhere, before the file tree is looked at. -/
theorem refuses_of_parse (h : Digest.parse token = .error fault)
    (hverify : verify key url data (some token) = .error refusal) :
    store.Refuses tree key url data token fault.toFailure refusal where
  parse := by rw [h, mapError_error]
  put := by rw [run_put, hverify]
  contains := by
    unfold contains
    rw [h]
    rfl
  read := by
    unfold read
    rw [h]
    rfl

theorem proper_of_reported {report : Diagnostic} (h : Digest.parse token = .error fault)
    (hreport : fault.toFailure = .diagnosed report) (hkind : report.kind = .integrity) :
    Proper token := by
  refine Or.inr ⟨report, hkind, fun store tree key url data => ?_⟩
  have hverify : verify key url data (some token) =
      .error (.diagnosed (malformedDeclaration key url token report)) := by
    simp only [verify, h, hreport]
  refine ⟨_, rfl, expected_malformedDeclaration key url token report, ?_⟩
  rw [← hreport]
  exact refuses_of_parse h hverify

theorem refuses_of_escapes (h : Escapes token failure) :
    store.Refuses tree key url data token failure failure := by
  obtain ⟨fault, hparse, hfailure⟩ := Digest.parse_of_escapes h
  have hverify : verify key url data (some token) = .error failure := by
    cases h <;> simp only [verify, hparse, hfailure]
  rw [← hfailure] at hverify ⊢
  exact refuses_of_parse hparse hverify

/-- A token of which something becomes that should does not get around the report. -/
theorem not_escapes_of_proper (h : Proper token) : ¬ Escapes token failure := by
  intro hescapes
  obtain ⟨fault, hparse, hfailure⟩ := Digest.parse_of_escapes hescapes
  rcases h with ⟨d, hd, _⟩ | ⟨report, _, hrefuses⟩
  · rw [hparse] at hd
    cases hd
  · obtain ⟨_, _, _, hrefused⟩ := hrefuses ⟨⟨.workingDirectory, []⟩⟩ FileTree.empty "" "" []
    have hsame := hrefused.parse
    rw [hparse, mapError_error, hfailure] at hsame
    cases hsame
    cases hescapes

/-- **What becomes of every token, whatever store it is given to.** -/
theorem judged_token (token : String) : Judged token where
  proper_iff := by
    refine ⟨fun h failure => not_escapes_of_proper h, fun hnone => ?_⟩
    cases hparse : Digest.parse token with
    | ok d => exact Or.inl ⟨d, hparse, Digest.supported_of_parse hparse⟩
    | error fault =>
        rcases Digest.toFailure_cases fault with ⟨report, hreport, hkind⟩ | hfault
        · exact proper_of_reported hparse hreport hkind
        · exact absurd (Digest.escapes_of_parse hparse hfault) (hnone _)
  escapes := fun _ h _ _ _ _ _ => refuses_of_escapes h

/-- **Not every token is reported**: a put that declares digits beyond ASCII fails with a failure
that has no diagnostic. -/
theorem unreported_foreign_digits :
    (∀ (store : Store) (tree : FileTree) (key url : String) (data : Bytes),
      (store.put key url data (some "sha512-é")).run tree = (.error .foreignDigits, tree)) ∧
    ¬ ∀ token : String, Proper token := by
  have hspelled : Digest.Spelled "sha512-é" "sha512".toList ['é'] :=
    ⟨⟨[], by decide, Or.inl rfl⟩, by decide, by decide⟩
  have hescapes : Escapes "sha512-é" .foreignDigits :=
    .foreignDigits (a := .sha512) hspelled (by decide) (List.mem_singleton.2 rfl) (by decide)
  exact ⟨fun store tree key url data => (refuses_of_escapes hescapes).put,
    fun hall => not_escapes_of_proper (hall _) hescapes⟩

end Store

end LockPrefetch
