import LockPrefetch.Lockfile.Reader
import LockPrefetch.Proofs.Json.Refusals

/-! # How parsing ends

A document parses to a lockfile that has no section but the one of its version, or it is
diagnosed (`Proper`), unless a whole number of more than 4300 digits stands in it. Wherever the
reader meets such a number, the refusal of the number comes up as a failure of its own
(`ends_parse`), from fields too that parsing makes no use of (`parseText_numbered`). -/

set_option autoImplicit false

namespace LockPrefetch.Lockfile

/-! ## Outcomes -/

/-- **A lockfile as a document has it**: the version is a whole number of the document, and there
is no section that a lockfile of this version does not have. -/
structure Describes (document : List Char) (lock : Lockfile) : Prop where
  version : ∃ fields, Json.read document = .ok (.object fields) ∧
    Ordered.get? "lockfileVersion" fields = some (.integer lock.version)
  packages : lock.packages.isSome = true → lock.version = 2 ∨ lock.version = 3
  dependencies : lock.dependencies.isSome = true → lock.version = 1

/-- **What parsing should end in**, given what the document was decoded to: a lockfile as the
document has it, or a diagnostic about a lockfile. -/
def Proper (decoded : Except Encoding.Fault (List Char)) : Except Failure Lockfile → Prop
  | .ok lock => ∃ document, decoded = .ok document ∧ Describes document lock
  | .error (.diagnosed report) => report.kind = .lockfile
  | .error _ => False

/-- The reader stops at a whole number of too many digits. -/
def Overflows (decoded : Except Encoding.Fault (List Char)) (digits : Nat) : Prop :=
  ∃ document, decoded = .ok document ∧ Json.read document = .error (.oversized digits)

/-- **What parsing ends in.** -/
structure Ends (decoded : Except Encoding.Fault (List Char)) (result : Except Failure Lockfile) :
    Prop where
  proper_iff : Proper decoded result ↔ ∀ digits, ¬ Overflows decoded digits
  escapes : ∀ digits, Overflows decoded digits → result = .error (.oversizedNumber digits)
  holds : ∀ digits, Overflows decoded digits → Text.maxDigits < digits ∧
    ∃ document, decoded = .ok document ∧ Json.HoldsDigits digits document

/-- Every fault of a lockfile is reported as one. -/
theorem kind_diagnostic (fault : Fault) : fault.diagnostic.kind = .lockfile := by
  cases fault <;> rfl

/-! ## Sections -/

/-- The two sections of a document are read one after the other. -/
theorem ofJson_object {fields : List (String × Json.Value)} {version : Int}
    (h : Ordered.get? "lockfileVersion" fields = some (.integer version)) :
    ofJson (.object fields) = (do
      let dependencies ←
        (if version = treeVersion then section? "dependencies" treeOf fields else .ok none)
      let packages ←
        (if flatVersions.contains version then section? "packages" packagesOf fields
          else .ok none)
      return ⟨version, dependencies, packages⟩) := by
  simp only [ofJson, h]
  split
  · split <;> rfl
  · split <;> rfl

theorem version_of_ofJson {value : Json.Value} {lock : Lockfile} (h : ofJson value = .ok lock) :
    ∃ fields version, value = .object fields ∧
      Ordered.get? "lockfileVersion" fields = some (.integer version) := by
  unfold ofJson at h
  split at h
  · split at h
    · rename_i hversion
      exact ⟨_, _, rfl, hversion⟩
    · cases h
  · cases h

theorem section_of_ite {α : Type} {p : Prop} [Decidable p] {x : Except Fault (Option α)}
    {found : Option α} (h : (if p then x else .ok none) = .ok found)
    (hsome : found.isSome = true) : p := by
  by_contra hp
  rw [if_neg hp] at h
  cases h
  cases hsome

theorem describes_of_ofJson {document : List Char} {value : Json.Value} {lock : Lockfile}
    (hread : Json.read document = .ok value) (h : ofJson value = .ok lock) :
    Describes document lock := by
  obtain ⟨fields, version, rfl, hversion⟩ := version_of_ofJson h
  rw [ofJson_object hversion] at h
  obtain ⟨dependencies, hdependencies, h⟩ := bind_eq_ok_iff.1 h
  obtain ⟨packages, hpackages, h⟩ := bind_eq_ok_iff.1 h
  cases h
  refine ⟨⟨fields, hread, hversion⟩, fun hsome => ?_, section_of_ite hdependencies⟩
  have hflat := section_of_ite hpackages hsome
  simpa [flatVersions] using hflat

/-! ## Documents -/

theorem ends_of_proper {decoded : Except Encoding.Fault (List Char)}
    {result : Except Failure Lockfile} (hproper : Proper decoded result)
    (h : ∀ digits, ¬ Overflows decoded digits) : Ends decoded result where
  proper_iff := ⟨fun _ => h, fun _ => hproper⟩
  escapes digits hoverflow := absurd hoverflow (h digits)
  holds digits hoverflow := absurd hoverflow (h digits)

theorem ends_of_overflows {decoded : Except Encoding.Fault (List Char)} {digits : Nat}
    (h : Overflows decoded digits) : Ends decoded (.error (.oversizedNumber digits)) where
  proper_iff := ⟨False.elim, fun hnone => hnone digits h⟩
  escapes other hother := by
    obtain ⟨document, rfl, hread⟩ := h
    obtain ⟨_, ⟨⟩, hagain⟩ := hother
    cases hread.symm.trans hagain
    rfl
  holds other hother := by
    obtain ⟨document, rfl, hread⟩ := hother
    have hfault := Json.of_read hread
    exact ⟨hfault.1, document, rfl, hfault.2⟩

theorem ends_parseDecoded (document : List Char) : Ends (.ok document) (parseDecoded document) := by
  unfold parseDecoded
  cases hread : Json.read document with
  | error fault =>
    cases fault with
    | malformed what place =>
      refine ends_of_proper (kind_diagnostic _) ?_
      rintro digits ⟨_, ⟨⟩, hdigits⟩
      cases hread.symm.trans hdigits
    | oversized digits => exact ends_of_overflows ⟨document, rfl, hread⟩
  | ok value =>
    have hnone : ∀ digits, ¬ Overflows (.ok document) digits := by
      rintro digits ⟨_, ⟨⟩, hdigits⟩
      cases hread.symm.trans hdigits
    simp only [mapError_ok, bind, Except.bind]
    cases hlock : ofJson value with
    | error fault => exact ends_of_proper (kind_diagnostic fault) hnone
    | ok lock => exact ends_of_proper ⟨document, rfl, describes_of_ofJson hread hlock⟩ hnone

/-- A document that begins with a byte order mark is not refused for its digits. -/
theorem read_mark {c : Char} (hc : c.toNat = 0xfeff) (rest : List Char) (digits : Nat) :
    Json.read (c :: rest) ≠ .error (.oversized digits) := by
  obtain rfl : c = Char.ofNat 0xfeff := by
    rw [← hc, Char.ofNat_toNat]
  have hvalue : ∀ fuel, Json.readValue (fuel + 1) (Char.ofNat 0xfeff :: rest) =
      .error (.complaint .value (rest.length + 1)) := by
    intro fuel
    rw [Json.readValue, Json.constant?_cons (by decide)]
    · rfl
    all_goals
      intro tail heq
      cases heq
  rw [Json.read, Json.readDocument, Json.skip_cons rfl, hvalue]
  intro hread
  cases hread

/-- **Parsing ends as it should unless the reader meets a number of too many digits**, for every
text and all octets. -/
theorem ends_parse (text : String) (octets : Bytes) :
    Ends (.ok text.toList) (parseText text) ∧
      Ends (Encoding.decode octets) (parseBytes octets) := by
  constructor
  · unfold parseText
    split
    · rename_i c rest htext
      rw [htext]
      split
      · rename_i hmark
        refine ends_of_proper (kind_diagnostic _) ?_
        rintro digits ⟨_, ⟨⟩, hdigits⟩
        exact read_mark hmark rest digits hdigits
      · exact ends_parseDecoded _
    · rename_i htext
      rw [htext]
      exact ends_parseDecoded []
  · unfold parseBytes
    split
    · rename_i fault hdecode
      rw [hdecode]
      refine ends_of_proper (kind_diagnostic _) ?_
      rintro digits ⟨_, ⟨⟩, _⟩
    · rename_i document hdecode
      rw [hdecode]
      exact ends_parseDecoded document

/-! ## Numbers of too many digits -/

/-- A lockfile with a number in a field that parsing makes no use of. -/
def numbered (run : List Char) : List Char :=
  '\x7b' :: (Json.writeString false "lockfileVersion" ++ ':' :: ' ' :: '1' :: ',' :: ' ' ::
    (Json.writeString false "n" ++ ':' :: ' ' :: (run ++ ['\x7d'])))

example : numbered ['7'] = "\x7b\"lockfileVersion\": 1, \"n\": 7\x7d".toList := by cbv

section Numbered

variable {run : List Char}

theorem readMembers_run (hrun : ∀ c ∈ run, c.isDigit = true) (hlead : run.head? ≠ some '0')
    (hmany : Text.maxDigits < run.length) (fuel : Nat) :
    Json.readMembers (fuel + 2) (Json.writeString false "n" ++ ':' :: ' ' :: (run ++ ['\x7d'])) =
      .error (.oversized run.length) := by
  refine Json.readMembers_refused "n" ?_
  cases run with
  | nil => exact absurd hmany (by decide)
  | cons c more =>
    have hc := hrun c List.mem_cons_self
    have hskip : Json.skip (' ' :: (c :: more ++ ['\x7d'])) = c :: (more ++ ['\x7d']) :=
      Json.skip_cons (Json.isGap_digit hc) _
    rw [hskip, Json.readValue_digit hc]
    exact Json.readNumber_oversized hrun hlead hmany (Json.stops_end (Or.inr rfl) [])

theorem readDocument_numbered (hrun : ∀ c ∈ run, c.isDigit = true) (hlead : run.head? ≠ some '0')
    (hmany : Text.maxDigits < run.length) :
    Json.readDocument (numbered run) = .error (.oversized run.length) := by
  have hone : ∀ fuel more, Json.readValue (fuel + 1) ('1' :: ',' :: more) =
      .ok (.integer 1, ',' :: more) := by
    intro fuel more
    rw [Json.readValue_digit rfl]
    rfl
  have hvalue : ∀ fuel, Json.readValue (fuel + 4) (numbered run) =
      .error (.oversized run.length) := fun fuel =>
    Json.readValue_refused (Json.readMembers_refused_later "lockfileVersion" (hone _ _) rfl
      (readMembers_run hrun hlead hmany fuel))
  have hlength : 0 < (numbered run).length := List.length_pos_iff.2 (List.cons_ne_nil _ _)
  obtain ⟨fuel, hfuel⟩ : ∃ fuel, 2 * (numbered run).length + 2 = fuel + 4 :=
    ⟨2 * (numbered run).length - 2, by omega⟩
  have hskip : Json.skip (numbered run) = numbered run := Json.skip_cons rfl _
  rw [Json.readDocument, hskip, hfuel, hvalue]
  rfl

/-- **A number of too many digits comes up as it is**, from a field that nothing looks at. -/
theorem parseText_numbered (hrun : ∀ c ∈ run, c.isDigit = true) (hlead : run.head? ≠ some '0')
    (hmany : Text.maxDigits < run.length) :
    parseText (String.ofList (numbered run)) = .error (.oversizedNumber run.length) := by
  have hread : Json.read (numbered run) = .error (.oversized run.length) := by
    rw [Json.read, readDocument_numbered hrun hlead hmany]
    rfl
  have hparse : parseDecoded (numbered run) = .error (.oversizedNumber run.length) := by
    rw [parseDecoded, hread]
    rfl
  rw [parseText, String.toList_ofList]
  exact hparse

end Numbered

/-- **Not every failure is a diagnostic about a lockfile**: 4301 digits are one too many. -/
theorem undiagnosed_numbered :
    parseText (String.ofList (numbered (List.replicate 4301 '1'))) =
      .error (.oversizedNumber 4301) ∧
    ¬ ∀ document : String, (∃ lock, parseText document = .ok lock) ∨
      ∃ report, parseText document = .error (.diagnosed report) ∧ report.kind = .lockfile := by
  have hrun : ∀ c ∈ List.replicate 4301 '1', c.isDigit = true := by
    intro c hc
    rw [List.eq_of_mem_replicate hc]
    rfl
  have hlead : (List.replicate 4301 '1').head? ≠ some '0' := by
    rw [List.head?_replicate]
    decide
  have hmany : Text.maxDigits < (List.replicate 4301 '1').length := by
    rw [List.length_replicate]
    decide
  have hparse := parseText_numbered hrun hlead hmany
  rw [List.length_replicate] at hparse
  refine ⟨hparse, fun hall => ?_⟩
  rcases hall _ with ⟨lock, hlock⟩ | ⟨report, hreport, _⟩
  · cases hparse.symm.trans hlock
  · cases hparse.symm.trans hreport

end LockPrefetch.Lockfile
