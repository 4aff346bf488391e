import LockPrefetch.Json.Reader
import LockPrefetch.Proofs.Json.RoundTrip

/-! # Where reading stops

Reading a document yields a value or refuses the document for something that it holds
(`of_read`): the place of a complaint is one of its places, and where digits are too many, so
many of them stand there in a row. Readers are followed from some end of the document to a later
one (`Within`), so that they can be put one behind the other (`within_bind`).

The other way round, a whole number of too many digits is refused wherever a value may stand
(`readNumber_oversized`), and with it the object around it. -/

set_option autoImplicit false

namespace LockPrefetch.Json

variable {α β : Type} {document : List Char}

/-! ## Refusals of a document -/

/-- Whether so many digits stand in a row in some characters, and not one more. -/
def HoldsDigits (digits : Nat) (s : List Char) : Prop :=
  ∃ before run after, s = before ++ (run ++ after) ∧ run.length = digits ∧
    (∀ c ∈ run, c.isDigit = true) ∧ ∀ c ∈ after.head?, c.isDigit = false

/-- **A refusal of a document**: its place is one of the document, its digits stand there. -/
def Stop.Of (document : List Char) : Stop → Prop
  | .complaint _ remaining => remaining ≤ document.length
  | .oversized digits => Text.maxDigits < digits ∧ HoldsDigits digits document

/-- What a reader may yield from within a document: it goes on from some end of the document
or refuses it. -/
def Within (document : List Char) : Except Stop (α × List Char) → Prop
  | .ok (_, rest) => rest <:+ document
  | .error stop => stop.Of document

theorem within_bind {x : Except Stop (α × List Char)}
    {f : α × List Char → Except Stop (β × List Char)} (hx : Within document x)
    (hf : ∀ a rest, rest <:+ document → Within document (f (a, rest))) :
    Within document (x >>= f) := by
  cases x with
  | error stop => exact hx
  | ok found => exact hf found.1 found.2 hx

theorem within_map {x : Except Stop (α × List Char)} (f : α → β) (hx : Within document x) :
    Within document (x.map fun found => (f found.1, found.2)) := by
  cases x with
  | error stop => exact hx
  | ok found => exact hx

theorem within_complaint {s : List Char} (hs : s <:+ document) (what : Complaint) {remaining : Nat}
    (h : remaining ≤ s.length) :
    Within document (.error (.complaint what remaining) : Except Stop (α × List Char)) :=
  Nat.le_trans h hs.length_le

/-! ## White space, constants and numbers -/

theorem skip_suffix (s : List Char) : skip s <:+ s := List.dropWhile_suffix _

theorem suffix_of_constant? {s rest : List Char} {value : Value}
    (h : constant? s = some (value, rest)) : rest <:+ s := by
  unfold constant? at h
  split at h
  · cases h
    exact List.drop_suffix _ _
  · cases h

theorem minusPart_append (s : List Char) : (minusPart s).1 ++ (minusPart s).2 = s := by
  unfold minusPart
  split <;> rfl

theorem signPart_append (s : List Char) : (signPart s).1 ++ (signPart s).2 = s := by
  unfold signPart
  split <;> rfl

theorem wholePart_append (s : List Char) : (wholePart s).1 ++ (wholePart s).2 = s := by
  unfold wholePart
  split
  · rfl
  · exact List.takeWhile_append_dropWhile

theorem fractionPart_append (s : List Char) : (fractionPart s).1 ++ (fractionPart s).2 = s := by
  unfold fractionPart
  split
  · split
    · simp [List.takeWhile_append_dropWhile]
    · rfl
  · rfl

theorem exponentPart_append (s : List Char) : (exponentPart s).1 ++ (exponentPart s).2 = s := by
  unfold exponentPart
  split
  · rfl
  · rename_i e rest
    split
    · dsimp only
      split
      · simp only [List.cons_append, List.append_assoc, List.takeWhile_append_dropWhile,
          signPart_append]
      · rfl
    · rfl

/-- More than one digit are all the digits that there are. -/
theorem isDigit_of_wholePart {s : List Char} (h : 1 < (wholePart s).1.length) :
    (∀ c ∈ (wholePart s).1, c.isDigit = true) ∧
      ∀ c ∈ (wholePart s).2.head?, c.isDigit = false := by
  unfold wholePart at h ⊢
  split
  · simp at h
  · refine ⟨List.all_eq_true.1 List.all_takeWhile, fun c hc => ?_⟩
    have hstop := List.head?_dropWhile_not Char.isDigit s
    rw [show (s.dropWhile Char.isDigit).head? = some c from hc] at hstop
    exact hstop

theorem within_readNumber {s : List Char} (hs : s <:+ document) :
    Within document (readNumber s) := by
  rcases hminus : minusPart s with ⟨minus, body⟩
  rcases hwhole : wholePart body with ⟨whole, rest⟩
  rcases hfraction : fractionPart rest with ⟨fraction, behind⟩
  rcases hexponent : exponentPart behind with ⟨exponent, last⟩
  have hbody : minus ++ body = s := by simpa [hminus] using minusPart_append s
  have hrest : whole ++ rest = body := by simpa [hwhole] using wholePart_append body
  have hbehind : fraction ++ behind = rest := by
    simpa [hfraction] using fractionPart_append rest
  have hlast : exponent ++ last = behind := by
    simpa [hexponent] using exponentPart_append behind
  have hsuffix : last <:+ document := by
    refine List.IsSuffix.trans ⟨minus ++ (whole ++ (fraction ++ exponent)), ?_⟩ hs
    simp only [List.append_assoc, hlast, hbehind, hrest, hbody]
  simp only [readNumber, hminus, hwhole, hfraction, hexponent]
  split
  · exact within_complaint hs _ (Nat.le_refl _)
  · split
    · split
      · rename_i hmany
        have hlong : 1 < whole.length := Nat.lt_trans (by decide) hmany
        have hdigits := isDigit_of_wholePart (s := body) (by rwa [hwhole])
        rw [hwhole] at hdigits
        obtain ⟨before, hbefore⟩ := hs
        refine ⟨hmany, before ++ minus, whole, rest, ?_, rfl, hdigits⟩
        rw [List.append_assoc, hrest, hbody, hbefore]
      · exact hsuffix
    · exact hsuffix

/-- **A whole number of too many digits is refused.** -/
theorem readNumber_oversized {run rest : List Char} (hrun : ∀ c ∈ run, c.isDigit = true)
    (hlead : run.head? ≠ some '0') (hmany : Text.maxDigits < run.length) (h : Stops rest) :
    readNumber (run ++ rest) = .error (.oversized run.length) := by
  cases run with
  | nil => exact absurd hmany (by decide)
  | cons c more =>
    have hwhole := wholePart_of_stops hrun hlead h
    rw [List.cons_append] at hwhole
    rw [List.cons_append, readNumber, minusPart_digit (hrun c List.mem_cons_self)]
    simp only [hwhole, fractionPart_of_stops h, exponentPart_of_stops h]
    simpa using hmany

/-- A value that begins with a digit is a number. -/
theorem readValue_digit {c : Char} (h : c.isDigit = true) (fuel : Nat) (more : List Char) :
    readValue (fuel + 1) (c :: more) = readNumber (c :: more) := by
  rw [readValue, constant?_digit h]
  all_goals
    intro tail heq
    cases heq
    cases h

/-! ## Strings -/

theorem within_withUnit (n : Nat) {x : Except Stop (List Nat × List Char)}
    (hx : Within document x) : Within document (withUnit n x) :=
  within_map (n :: ·) hx

theorem suffix_of_cons {c : Char} {s : List Char} (h : c :: s <:+ document) : s <:+ document :=
  (List.suffix_cons c s).trans h

/-- A string that never ends is refused at its opening quote. -/
theorem within_readUnits {opening : Nat} (hopening : opening ≤ document.length)
    {s : List Char} (hs : s <:+ document) : Within document (readUnits opening s) := by
  fun_induction readUnits opening s with
  | case1 => exact hopening
  | case2 rest => exact suffix_of_cons hs
  | case3 a b c d rest hempty => exact within_complaint hs _ (by simp)
  | case4 a b c d rest hempty n hn ih =>
    have hrest : rest <:+ document := by
      iterate 6 replace hs := suffix_of_cons hs
      exact hs
    exact within_withUnit n (ih hrest)
  | case5 a b c d rest hempty hn => exact within_complaint hs _ (by simp)
  | case6 rest hfew => exact within_complaint hs _ (by simp)
  | case7 => exact hopening
  | case8 c rest _ _ escaped _ ih =>
    exact within_withUnit _ (ih (suffix_of_cons (suffix_of_cons hs)))
  | case9 c rest => exact within_complaint hs _ (by simp)
  | case10 c rest => exact within_complaint hs _ (by simp)
  | case11 c rest _ _ _ _ _ _ ih => exact within_withUnit _ (ih (suffix_of_cons hs))

theorem within_readString {opening : Nat} (hopening : opening ≤ document.length)
    {s : List Char} (hs : s <:+ document) : Within document (readString opening s) :=
  within_map (fun units => String.ofList (ofUnits units)) (within_readUnits hopening hs)

/-! ## Values -/

theorem suffix_of_skip {c : Char} {s rest : List Char} (h : skip s = c :: rest)
    (hs : s <:+ document) : rest <:+ document :=
  suffix_of_cons (h ▸ (skip_suffix s).trans hs)

mutual

/-- **Reading a value stays within the document.** -/
theorem within_readValue (fuel : Nat) {s : List Char} (hs : s <:+ document) :
    Within document (readValue fuel s) := by
  cases fuel with
  | zero => exact within_complaint hs _ (Nat.le_refl _)
  | succ fuel =>
    unfold readValue
    split
    · refine within_bind (within_readString hs.length_le (suffix_of_cons hs)) ?_
      intro text rest hrest
      exact hrest
    · split
      · rename_i hskip
        exact suffix_of_skip hskip (suffix_of_cons hs)
      · refine within_bind (within_readItems fuel ((skip_suffix _).trans (suffix_of_cons hs))) ?_
        intro items rest hrest
        exact hrest
    · split
      · rename_i hskip
        exact suffix_of_skip hskip (suffix_of_cons hs)
      · refine within_bind (within_readMembers fuel ((skip_suffix _).trans (suffix_of_cons hs))) ?_
        intro members rest hrest
        exact hrest
    · split
      · rename_i hfound
        exact (suffix_of_constant? hfound).trans hs
      · exact within_readNumber hs

theorem within_readItems (fuel : Nat) {s : List Char} (hs : s <:+ document) :
    Within document (readItems fuel s) := by
  cases fuel with
  | zero => exact within_complaint hs _ (Nat.le_refl _)
  | succ fuel =>
    unfold readItems
    refine within_bind (within_readValue fuel hs) ?_
    intro item rest hrest
    dsimp only
    split
    · rename_i hskip
      exact suffix_of_skip hskip hrest
    · rename_i hskip
      refine within_bind
        (within_readItems fuel ((skip_suffix _).trans (suffix_of_skip hskip hrest))) ?_
      intro items rest hrest
      exact hrest
    · exact within_complaint ((skip_suffix _).trans hrest) _ (Nat.le_refl _)

theorem within_readMembers (fuel : Nat) {s : List Char} (hs : s <:+ document) :
    Within document (readMembers fuel s) := by
  cases fuel with
  | zero => exact within_complaint hs _ (Nat.le_refl _)
  | succ fuel =>
    unfold readMembers
    split
    · refine within_bind (within_readString hs.length_le (suffix_of_cons hs)) ?_
      intro name rest hrest
      dsimp only
      split
      · rename_i hskip
        refine within_bind
          (within_readValue fuel ((skip_suffix _).trans (suffix_of_skip hskip hrest))) ?_
        intro value rest hrest
        dsimp only
        split
        · rename_i hskip
          exact suffix_of_skip hskip hrest
        · rename_i hskip
          refine within_bind
            (within_readMembers fuel ((skip_suffix _).trans (suffix_of_skip hskip hrest))) ?_
          intro members rest hrest
          exact hrest
        · exact within_complaint ((skip_suffix _).trans hrest) _ (Nat.le_refl _)
      · exact within_complaint ((skip_suffix _).trans hrest) _ (Nat.le_refl _)
    · exact within_complaint hs _ (Nat.le_refl _)

end

/-- **A document that cannot be read is refused for what it holds.** -/
theorem of_readDocument {stop : Stop} (h : readDocument document = .error stop) :
    stop.Of document := by
  have hvalue := within_readValue (2 * document.length + 2) (skip_suffix document)
  unfold readDocument at h
  cases hfound : readValue (2 * document.length + 2) (skip document) with
  | error refusal =>
    rw [hfound] at h hvalue
    cases h
    exact hvalue
  | ok found =>
    obtain ⟨value, rest⟩ := found
    rw [hfound] at h hvalue
    simp only [bind, Except.bind] at h
    split at h
    · cases h
    · cases h
      exact ((skip_suffix rest).trans hvalue).length_le

/-- **A fault of a document**: a complaint's place is right in front of the characters that
remained, digits that are too many stand in the document. -/
def Fault.Of (document : List Char) : Fault → Prop
  | .malformed what place =>
    ∃ before after, document = before ++ after ∧ place = Place.behind before ∧
      readDocument document = .error (.complaint what after.length)
  | .oversized digits => Text.maxDigits < digits ∧ HoldsDigits digits document

/-- **A document that is not JSON is at fault itself.** -/
theorem of_read {fault : Fault} (h : read document = .error fault) : fault.Of document := by
  unfold read at h
  cases hread : readDocument document with
  | ok value =>
    rw [hread] at h
    cases h
  | error stop =>
    have hstop := of_readDocument hread
    rw [hread] at h
    cases h
    cases stop with
    | complaint what remaining =>
      refine ⟨_, _, (List.take_append_drop (document.length - remaining) document).symm, rfl, ?_⟩
      rw [hread, List.length_drop, Nat.sub_sub_self hstop]
    | oversized digits => exact hstop

/-! ## Members

An object is refused for the value of one of its members, whatever members stand before it. -/

theorem readValue_refused {fuel : Nat} {more : List Char} {stop : Stop}
    (h : readMembers fuel ('"' :: more) = .error stop) :
    readValue (fuel + 1) ('\x7b' :: '"' :: more) = .error stop := by
  simp [readValue, skip_cons, isGap, h, bind, Except.bind]

theorem readMembers_refused (name : String) {fuel : Nat} {s : List Char} {stop : Stop}
    (h : readValue fuel (skip s) = .error stop) :
    readMembers (fuel + 1) (writeString false name ++ ':' :: s) = .error stop := by
  simp only [writeString, List.cons_append, List.append_assoc, List.nil_append, readMembers,
    readString_written, bind, Except.bind, skip_cons (show isGap ':' = false from rfl), h]

theorem readMembers_refused_later (name : String) {fuel : Nat} {value : Value}
    {s rest more : List Char} {stop : Stop} (hvalue : readValue fuel (skip s) = .ok (value, rest))
    (hcomma : skip rest = ',' :: more) (h : readMembers fuel (skip more) = .error stop) :
    readMembers (fuel + 1) (writeString false name ++ ':' :: s) = .error stop := by
  simp only [writeString, List.cons_append, List.append_assoc, List.nil_append, readMembers,
    readString_written, bind, Except.bind, skip_cons (show isGap ':' = false from rfl), hvalue,
    hcomma, h]

end LockPrefetch.Json
