import LockPrefetch.Encoding.Utf8.Lines
import LockPrefetch.Proofs.Cache.Line

/-! # Buckets by lines

A bucket is decoded as a whole and then taken apart. What this amounts to for each of its lines,
which are octets that need not be text: if all of them are text, each is read on its own
(`entriesOf_joined`), and the entries are those that the valid records say (`Listed`,
`listed_iff`). But one line that is not text leaves nothing of the bucket (`decode_joined`), and a
record with a number of too many digits is not passed over either (`entriesOf_oversized`). -/

set_option autoImplicit false

namespace LockPrefetch.Cache

open Json (Value)
open Encoding.Utf8 (decode decode_lines not_mem_of_decode)

/-- **A line of a bucket**: octets without a line end. -/
structure Line where
  octets : Bytes
  noFeed : 10 ∉ octets
  noReturn : 13 ∉ octets

namespace Line

variable {line : Line} {lines : List Line} {text record : List Char} {key : String} {entry : Entry}
  {members : List (String × Value)} {failure : Failure} {digits : Nat}

/-! ## What a line is -/

/-- The text of a line. -/
def text? (line : Line) : Except Encoding.Fault (List Char) := decode line.octets

/-- A line is text. -/
def IsText (line : Line) : Prop := ∃ text, line.text? = .ok text

/-- A line is the checksum of a record, a tab and the record. -/
def Checks (line : Line) (record : List Char) : Prop :=
  line.text? = .ok (Bucket.checksum record ++ '\t' :: record)

/-- **A line is a valid record**: it checks out, and the record is an object. -/
def IsRecord (line : Line) (members : List (String × Value)) : Prop :=
  ∃ record, line.Checks record ∧ Json.read record = .ok (.object members)

/-- A line checks out, and a number of too many digits is in the way of its record. -/
def Oversized (line : Line) (digits : Nat) : Prop :=
  ∃ record, line.Checks record ∧ Json.read record = .error (.oversized digits)

/-- **A line says an entry of a key**: it is a valid record of the key. -/
def Says (line : Line) (key : String) (entry : Entry) : Prop :=
  ∃ members, line.IsRecord members ∧
    (Ordered.get? "key" members).bind Value.string? = some key ∧
    Entry.ofRecord? members = some entry

/-- **The entries of a key in lines**: one for each line that says one, in the order of the
lines. -/
inductive Listed (key : String) : List Line → List Entry → Prop
  | nil : Listed key [] []
  | said {line : Line} {lines : List Line} {entry : Entry} {found : List Entry} :
      line.Says key entry → Listed key lines found → Listed key (line :: lines) (entry :: found)
  | silent {line : Line} {lines : List Line} {found : List Entry} :
      (∀ entry, ¬ line.Says key entry) → Listed key lines found → Listed key (line :: lines) found

/-- The entry of a key that is read from a line, if one is. -/
def said? (key : String) (line : Line) : Option Entry :=
  match line.text? with
  | .error _ => none
  | .ok text =>
    match Bucket.entryOf? key text with
    | .error _ => none
    | .ok found => found

end Line

namespace Bucket

variable {line : Line} {lines : List Line} {text record : List Char} {key : String} {entry : Entry}
  {members : List (String × Value)} {failure : Failure} {digits : Nat}

/-! ## Reading the text of a line -/

/-- What is cut off at a tab is a checksum only if the whole is its record behind it. -/
theorem cut_line (record : List Char) :
    Text.cut '\t' (checksum record ++ '\t' :: record) = (checksum record, some record) := by
  have htab : '\t' ∉ checksum record := fun hmem =>
    absurd (visible_checksum record _ hmem) (by decide)
  exact Text.cut_append htab record

theorem membersOf?_checked (record : List Char) :
    membersOf? (checksum record ++ '\t' :: record) =
      match Json.read record with
      | .ok (.object members) => .ok (some members)
      | .ok _ => .ok none
      | .error (.malformed _ _) => .ok none
      | .error (.oversized digits) => .error (.oversizedNumber digits) := by
  unfold membersOf?
  rw [cut_line]
  exact if_pos rfl

/-- A text that does not check out is passed over. -/
theorem membersOf?_unchecked (h : ∀ record, text ≠ checksum record ++ '\t' :: record) :
    membersOf? text = .ok none := by
  unfold membersOf?
  split
  · rename_i sum record hcut
    obtain ⟨htext, _⟩ := Text.eq_of_cut_some hcut
    rw [if_neg]
    rintro rfl
    exact h record htext
  · rfl

theorem membersOf?_eq_some_iff : membersOf? text = .ok (some members) ↔
    ∃ record, text = checksum record ++ '\t' :: record ∧
      Json.read record = .ok (.object members) := by
  constructor
  · intro h
    by_cases hchecked : ∃ record, text = checksum record ++ '\t' :: record
    · obtain ⟨record, rfl⟩ := hchecked
      refine ⟨record, rfl, ?_⟩
      rw [membersOf?_checked] at h
      split at h <;> cases h
      assumption
    · rw [membersOf?_unchecked fun record hrecord => hchecked ⟨record, hrecord⟩] at h
      cases h
  · rintro ⟨record, rfl, hread⟩
    exact membersOf?_line hread

theorem membersOf?_eq_error_iff : membersOf? text = .error failure ↔
    ∃ record digits, text = checksum record ++ '\t' :: record ∧
      Json.read record = .error (.oversized digits) ∧ failure = .oversizedNumber digits := by
  constructor
  · intro h
    by_cases hchecked : ∃ record, text = checksum record ++ '\t' :: record
    · obtain ⟨record, rfl⟩ := hchecked
      rw [membersOf?_checked] at h
      split at h <;> cases h
      exact ⟨record, _, rfl, by assumption, rfl⟩
    · rw [membersOf?_unchecked fun record hrecord => hchecked ⟨record, hrecord⟩] at h
      cases h
  · rintro ⟨record, digits, rfl, hread, rfl⟩
    rw [membersOf?_checked, hread]

theorem entryOf?_eq_error_iff : entryOf? key text = .error failure ↔
    membersOf? text = .error failure := by
  unfold entryOf?
  rw [bind_eq_error_iff]
  constructor
  · rintro (h | ⟨members?, _, h⟩)
    · exact h
    · cases members? with
      | none => cases h
      | some members =>
        simp only at h
        split at h <;> cases h
  · exact Or.inl

theorem entryOf?_eq_some_iff : entryOf? key text = .ok (some entry) ↔
    ∃ members, membersOf? text = .ok (some members) ∧
      (Ordered.get? "key" members).bind Value.string? = some key ∧
      Entry.ofRecord? members = some entry := by
  unfold entryOf?
  rw [bind_eq_ok_iff]
  constructor
  · rintro ⟨members?, hmembers, h⟩
    cases members? with
    | none => cases h
    | some members =>
      simp only at h
      split at h
      · rename_i hkey
        exact ⟨members, hmembers, hkey, by simpa [pure, Except.pure] using h⟩
      · cases h
  · rintro ⟨members, hmembers, hkey, hentry⟩
    refine ⟨some members, hmembers, ?_⟩
    simp only [hkey, if_true, hentry]
    rfl

end Bucket

namespace Line

variable {line : Line} {lines : List Line} {text record : List Char} {key : String} {entry : Entry}
  {members : List (String × Value)} {failure : Failure} {digits : Nat}

/-! ## What a line says -/

theorem isRecord_iff (h : line.text? = .ok text) :
    line.IsRecord members ↔ Bucket.membersOf? text = .ok (some members) := by
  rw [Bucket.membersOf?_eq_some_iff]
  constructor
  · rintro ⟨record, hchecks, hread⟩
    cases h.symm.trans hchecks
    exact ⟨record, rfl, hread⟩
  · rintro ⟨record, rfl, hread⟩
    exact ⟨record, h, hread⟩

theorem oversized_iff (h : line.text? = .ok text) :
    line.Oversized digits ↔ Bucket.membersOf? text = .error (.oversizedNumber digits) := by
  rw [Bucket.membersOf?_eq_error_iff]
  constructor
  · rintro ⟨record, hchecks, hread⟩
    cases h.symm.trans hchecks
    exact ⟨record, digits, rfl, hread, rfl⟩
  · rintro ⟨record, other, rfl, hread, hsame⟩
    cases hsame
    exact ⟨record, h, hread⟩

theorem IsRecord.isText (h : line.IsRecord members) : line.IsText := by
  obtain ⟨record, hchecks, _⟩ := h
  exact ⟨_, hchecks⟩

/-- **What is read from a line is what the line says.** -/
theorem said?_eq_some_iff : line.said? key = some entry ↔ line.Says key entry := by
  unfold said?
  cases htext : line.text? with
  | error fault =>
    constructor
    · nofun
    · rintro ⟨members, hrecord, _⟩
      obtain ⟨text, hother⟩ := hrecord.isText
      rw [htext] at hother
      cases hother
  | ok text =>
    have hsaid : line.Says key entry ↔ Bucket.entryOf? key text = .ok (some entry) := by
      rw [Bucket.entryOf?_eq_some_iff]
      exact exists_congr fun members => by rw [isRecord_iff htext]
    rw [hsaid]
    cases hfound : Bucket.entryOf? key text with
    | error failure => simp [hfound]
    | ok found => simp [hfound]

theorem said?_eq_none_iff : line.said? key = none ↔ ∀ entry, ¬ line.Says key entry := by
  rw [Option.eq_none_iff_forall_ne_some]
  exact forall_congr' fun entry => not_congr said?_eq_some_iff

/-- A line that is no valid record says nothing. -/
theorem said?_of_not_isRecord (h : ∀ members, ¬ line.IsRecord members) (key : String) :
    line.said? key = none := by
  rw [said?_eq_none_iff]
  rintro entry ⟨members, hrecord, _⟩
  exact h members hrecord

/-- **The entries in lines are what is read from each of them.** -/
theorem listed_iff {found : List Entry} :
    Listed key lines found ↔ found = lines.filterMap (said? key) := by
  constructor
  · intro h
    induction h with
    | nil => rfl
    | said hsaid _ ih => rw [List.filterMap_cons_some (said?_eq_some_iff.2 hsaid), ih]
    | silent hnone _ ih => rw [List.filterMap_cons_none (said?_eq_none_iff.2 hnone), ih]
  · rintro rfl
    induction lines with
    | nil => exact .nil
    | cons line rest ih =>
      cases hread : line.said? key with
      | none =>
        rw [List.filterMap_cons_none hread]
        exact .silent (said?_eq_none_iff.1 hread) ih
      | some entry =>
        rw [List.filterMap_cons_some hread]
        exact .said (said?_eq_some_iff.1 hread) ih

/-! ## Lines behind one another -/

/-- Lines as octets, with line feeds between them. -/
def joined : List Line → Bytes
  | [] => []
  | [line] => line.octets
  | line :: next :: rest => line.octets ++ 10 :: joined (next :: rest)

/-- **Lines that are joined are text** exactly if each of them is. -/
theorem decode_joined (lines : List Line) :
    (∃ text, decode (joined lines) = .ok text) ↔ ∀ line ∈ lines, line.IsText := by
  fun_induction joined lines with
  | case1 => simpa using ⟨[], rfl⟩
  | case2 line => simp [IsText, text?]
  | case3 line next rest ih =>
    rw [List.forall_mem_cons, ← ih]
    constructor
    · rintro ⟨text, htext⟩
      obtain ⟨before, after, hbefore, hafter, _⟩ := (decode_lines _ _ _).1 htext
      exact ⟨⟨before, hbefore⟩, after, hafter⟩
    · rintro ⟨⟨before, hbefore⟩, after, hafter⟩
      exact ⟨_, (decode_lines _ _ _).2 ⟨before, after, hbefore, hafter, rfl⟩⟩

/-- The text of joined lines is taken apart into their texts. -/
theorem pieces_of_joined (hne : lines ≠ []) (h : decode (joined lines) = .ok text) :
    '\r' ∉ text ∧ lines.mapM text? = .ok (Text.pieces '\n' text) := by
  fun_induction joined lines generalizing text with
  | case1 => exact absurd rfl hne
  | case2 line =>
    obtain ⟨hfeed, hreturn⟩ := not_mem_of_decode h line.noFeed line.noReturn
    refine ⟨hreturn, ?_⟩
    rw [Text.pieces_of_not_mem hfeed, List.mapM_cons, text?, h]
    rfl
  | case3 line next rest ih =>
    obtain ⟨before, after, hbefore, hafter, rfl⟩ := (decode_lines _ _ _).1 h
    obtain ⟨hfeed, hreturn⟩ := not_mem_of_decode hbefore line.noFeed line.noReturn
    obtain ⟨hlater, hrest⟩ := ih (List.cons_ne_nil _ _) hafter
    refine ⟨by simp [hreturn, hlater], ?_⟩
    rw [Text.pieces_append hfeed, List.mapM_cons, hrest, text?, hbefore]
    rfl

/-- Lines that are text and not oversized are read one by one. -/
theorem mapM_entryOf? {texts : List (List Char)} (h : lines.mapM text? = .ok texts)
    (hsized : ∀ line ∈ lines, ∀ digits, ¬ line.Oversized digits) (key : String) :
    texts.mapM (Bucket.entryOf? key) = .ok (lines.map (said? key)) := by
  induction lines generalizing texts with
  | nil =>
    cases h
    rfl
  | cons line rest ih =>
    rw [List.mapM_cons] at h
    obtain ⟨text, htext, h⟩ := bind_eq_ok_iff.1 h
    obtain ⟨later, hlater, h⟩ := bind_eq_ok_iff.1 h
    cases h
    obtain ⟨hline, hrest⟩ := List.forall_mem_cons.1 hsized
    have hentry : Bucket.entryOf? key text = .ok (line.said? key) := by
      unfold said?
      rw [htext]
      cases hfound : Bucket.entryOf? key text with
      | ok found => simp only [hfound]
      | error failure =>
        obtain ⟨_, digits, _, _, rfl⟩ :=
          Bucket.membersOf?_eq_error_iff.1 (Bucket.entryOf?_eq_error_iff.1 hfound)
        exact absurd ((oversized_iff htext).2 (Bucket.entryOf?_eq_error_iff.1 hfound)) (hline _)
    rw [List.mapM_cons, hentry, ih hlater hrest]
    rfl

/-- **Lines that are text are read each on its own**, if none of them is oversized. -/
theorem entriesOf_joined (h : decode (joined lines) = .ok text)
    (hsized : ∀ line ∈ lines, ∀ digits, ¬ line.Oversized digits) (key : String) :
    Bucket.entriesOf key text = .ok (lines.filterMap (said? key)) := by
  by_cases hne : lines = []
  · subst hne
    cases h
    rfl
  · obtain ⟨hreturn, htexts⟩ := pieces_of_joined hne h
    rw [Bucket.entriesOf, Bucket.unifyLineEnds_of_not_mem hreturn, mapM_entryOf? htexts hsized key]
    show Except.ok ((lines.map (said? key)).filterMap id) = _
    rw [List.filterMap_map]
    rfl

/-- **An oversized line is not passed over**: the number of one fails the reading. -/
theorem entriesOf_oversized (h : decode (joined lines) = .ok text) (hline : line ∈ lines)
    (hover : line.Oversized digits) (key : String) :
    ∃ other ∈ lines, ∃ digits, other.Oversized digits ∧
      Bucket.entriesOf key text = .error (.oversizedNumber digits) := by
  obtain ⟨hreturn, htexts⟩ := pieces_of_joined (List.ne_nil_of_mem hline) h
  rw [Bucket.entriesOf, Bucket.unifyLineEnds_of_not_mem hreturn]
  cases hmap : (Text.pieces '\n' text).mapM (Bucket.entryOf? key) with
  | ok found =>
    -- then the text of the oversized line could be read as well
    obtain ⟨before, after, rfl⟩ := List.append_of_mem hline
    obtain ⟨first, own, last, _, hown, _, hsplit⟩ := mapM_append_cons_eq_ok htexts
    rw [hsplit] at hmap
    obtain ⟨_, _, _, _, hread, _, _⟩ := mapM_append_cons_eq_ok hmap
    rw [Bucket.entryOf?_eq_error_iff.2 ((oversized_iff hown).1 hover)] at hread
    cases hread
  | error failure =>
    obtain ⟨own, hown, hfailure⟩ := exists_of_mapM_eq_error hmap
    obtain ⟨other, hother, htext⟩ := exists_of_mem_mapM htexts hown
    have hmembers := Bucket.entryOf?_eq_error_iff.1 hfailure
    obtain ⟨_, digits, _, _, rfl⟩ := Bucket.membersOf?_eq_error_iff.1 hmembers
    exact ⟨other, hother, digits, (oversized_iff htext).2 hmembers, rfl⟩

end Line

end LockPrefetch.Cache
