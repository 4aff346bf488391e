import LockPrefetch.Proofs.Cache.Isolation
import LockPrefetch.Proofs.Cache.Ledger
import LockPrefetch.Proofs.Cache.Lines
import LockPrefetch.Proofs.Json.Torn

/-! # Damaged buckets

What a store shows of a bucket that something has happened to. A damaged line that is text costs
only itself: the entries are those of the other lines, in their order. But a bucket is decoded as
a whole, so a single line that is not text, of whatever key, takes all entries with it, and a
reading that meets a number of too many digits fails as well (`withstands`).

A bucket that was torn off in the middle of a record still holds the records before (`LeftOf`).
What is left of the last one says nothing (`membersOf?_torn`), unless the cut went through a
character, which leaves octets that are no text. -/

set_option autoImplicit false

namespace LockPrefetch

namespace Cache

open Json (Torn)

variable {key url integrity : String} {size : Nat} {p : List Char}

/-- **A line that hinders the reading** of its bucket, whichever key is looked up. -/
def Line.Spoils (line : Line) : Prop := ¬ line.IsText ∨ ∃ digits, line.Oversized digits

/-! ## Torn lines -/

namespace Bucket

/-- **What is left of a line of stored content does not check out**, or its record is not JSON. -/
theorem membersOf?_torn (h : Json.Sized size)
    (htorn : Torn p (checksum (payload key url integrity size) ++
      '\t' :: payload key url integrity size)) :
    membersOf? p = .ok none := by
  by_cases hchecked : ∃ record, p = checksum record ++ '\t' :: record
  · obtain ⟨record, rfl⟩ := hchecked
    -- there is a tab, so the cut was behind it
    have hrecord : Torn record (payload key url integrity size) := by
      have htab : ∀ sum, '\t' ∉ checksum sum := fun sum hmem =>
        absurd (visible_checksum sum _ hmem) (by decide)
      rcases Json.torn_append htorn with hsum | ⟨rest, hsplit, hrest⟩
      · exact absurd (hsum.mem (by simp)) (htab _)
      · have hcut := congrArg (Text.cut '\t') hsplit
        rcases Json.torn_cons hrest with rfl | ⟨behind, rfl, hbehind⟩
        · rw [List.append_nil] at hsplit
          exact absurd (hsplit ▸ List.mem_append_right _ List.mem_cons_self) (htab _)
        · rw [cut_line, Text.cut_append (htab _)] at hcut
          obtain rfl : record = behind := Option.some.inj (Prod.mk.inj hcut).2
          exact hbehind
    obtain ⟨what, place, hread⟩ := Json.read_torn (plain_record h) hrecord
    rw [membersOf?_checked, hread]
  · exact membersOf?_unchecked fun record hrecord => hchecked ⟨record, hrecord⟩

/-- It is no entry of any key. -/
theorem entriesOf_torn (h : Json.Sized size)
    (htorn : Torn p (checksum (payload key url integrity size) ++
      '\t' :: payload key url integrity size)) (other : String) :
    entriesOf other p = .ok [] := by
  have habsent : ∀ {c : Char}, c.toNat < 0x20 → c ≠ '\t' → c ∉ p :=
    fun hc htab hmem => not_mem_line hc htab (htorn.mem hmem)
  have hentry : entryOf? other p = .ok none := by
    rw [entryOf?, membersOf?_torn h htorn]
    rfl
  rw [entriesOf, unifyLineEnds_of_not_mem (habsent (by decide) (by decide)),
    Text.pieces_of_not_mem (habsent (by decide) (by decide)), List.mapM_cons, hentry]
  rfl

end Bucket

end Cache

namespace Store

open Cache (Line)
open Cache.Line (joined)
open Encoding.Utf8 (decode)

variable {store : Store} {tree : FileTree} {key : String} {deposits whole : List Deposit}
  {bytes torn : Bytes} {lines : List Line} {text : List Char}

/-! ## What is left of a bucket -/

/-- **What is left of deposits' lines** when their end has been torn off: whole lines, and less
than a line of the deposit behind them. -/
structure LeftOf (deposits whole : List Deposit) (torn bytes : Bytes) : Prop where
  octets : bytes = whole.flatMap Deposit.line ++ torn
  intact : whole <+: deposits
  next : torn = [] ∨ ∃ p later lost, deposits = whole ++ p :: later ∧ lost ≠ [] ∧
    p.line = torn ++ lost

/-- **Wherever lines are torn off**, whole lines are left and less than a line. -/
theorem exists_leftOf (deposits : List Deposit) (length : Nat) :
    ∃ whole torn, LeftOf deposits whole torn ((deposits.flatMap Deposit.line).take length) := by
  induction deposits generalizing length with
  | nil => exact ⟨[], [], ⟨by simp, List.prefix_rfl, Or.inl rfl⟩⟩
  | cons p later ih =>
    by_cases hlength : length < p.line.length
    · -- the cut is in the first line
      refine ⟨[], p.line.take length, ⟨?_, List.nil_prefix, Or.inr ⟨p, later, ?_⟩⟩⟩
      · rw [List.flatMap_cons, List.take_append_of_le_length (by omega)]
        rfl
      · refine ⟨p.line.drop length, rfl, ?_, (List.take_append_drop _ _).symm⟩
        rw [Ne, List.drop_eq_nil_iff]
        omega
    · obtain ⟨whole, torn, hleft⟩ := ih (length - p.line.length)
      refine ⟨p :: whole, torn, ⟨?_, List.cons_prefix_cons.2 ⟨rfl, hleft.intact⟩, ?_⟩⟩
      · calc ((p :: later).flatMap Deposit.line).take length
            = (p.line ++ later.flatMap Deposit.line).take length := by
              rw [List.flatMap_cons]
          _ = p.line ++ (later.flatMap Deposit.line).take (length - p.line.length) := by
              rw [List.take_append, List.take_of_length_le (by omega)]
          _ = p.line ++ (whole.flatMap Deposit.line ++ torn) := by
              rw [hleft.octets]
          _ = (p :: whole).flatMap Deposit.line ++ torn := by
              rw [List.flatMap_cons, List.append_assoc]
      · rcases hleft.next with htorn | ⟨q, behind, lost, rfl, hlost, hline⟩
        · exact Or.inl htorn
        · exact Or.inr ⟨q, behind, lost, rfl, hlost, hline⟩

/-- What is left of a line, if it is text, adds no entry. -/
theorem entriesOf_next {p : Deposit} {lost : Bytes} {old : List Cache.Entry} {more : List Char}
    (hline : p.line = torn ++ lost) (hlost : lost ≠ []) (htorn : decode torn = .ok more)
    (hold : Cache.Bucket.entriesOf key text = .ok old) :
    Cache.Bucket.entriesOf key (text ++ more) = .ok old := by
  -- the characters are torn where the octets are
  have hwhole : decode (torn ++ lost) = .ok (Cache.Bucket.line p.payload) := by
    rw [← hline]
    exact Encoding.Utf8.decode_encode _
  have hmore : Json.Torn more (Cache.Bucket.line p.payload) := by
    obtain ⟨after, hafter, hsame⟩ := (Encoding.Utf8.decode_append_eq htorn).1 hwhole
    refine ⟨after, ?_, hsame⟩
    rintro rfl
    exact hlost (Encoding.Utf8.decode_eq_nil_iff.1 hafter)
  rcases Json.torn_cons hmore with rfl | ⟨rest, rfl, hrest⟩
  · rw [List.append_nil, hold]
  · have hnone := Cache.Bucket.entriesOf_torn p.measurable.sized hrest key
    have hboth := Cache.Bucket.entriesOf_append hold hnone
    rwa [List.append_nil] at hboth

/-- **What is left of a bucket has the entries of its whole lines**, if it is text. -/
theorem LeftOf.entriesOf (h : LeftOf deposits whole torn bytes) {more : List Char}
    (htorn : decode torn = .ok more) (key : String) :
    ∃ text, decode bytes = .ok text ∧ Cache.Bucket.entriesOf key text =
      .ok ((whole.filter fun p => p.key = key).map Deposit.entry) := by
  obtain ⟨text, htext, hentries⟩ := entriesOf_lines whole key
  refine ⟨text ++ more, ?_, ?_⟩
  · rw [h.octets]
    exact (Encoding.Utf8.decode_append_eq htext).2 ⟨more, htorn, rfl⟩
  · rcases h.next with rfl | ⟨p, _, lost, _, hlost, hline⟩
    · cases htorn
      rw [List.append_nil, hentries]
    · exact entriesOf_next hline hlost htorn hentries

/-- It is text as long as what is left of the last line is. -/
theorem LeftOf.torn_of_text (h : LeftOf deposits whole torn bytes)
    (htext : decode bytes = .ok text) : ∃ more, decode torn = .ok more := by
  obtain ⟨before, hbefore, _⟩ := entriesOf_lines whole ""
  rw [h.octets] at htext
  obtain ⟨more, hmore, _⟩ := (Encoding.Utf8.decode_append_eq hbefore).1 htext
  exact ⟨more, hmore⟩

/-! ## What a store shows -/

/-- **A store shows entries of a key**: they are what is listed, and the last one is what is got,
unless it gives the key up. -/
structure Shows (store : Store) (tree : FileTree) (key : String) (found : List Cache.Entry) :
    Prop where
  entries : store.entries tree key = .ok found
  get : store.get tree key = .ok (found.getLast?.filter fun entry => entry.integrity.isSome)

/-- **A store fails on a key**, in both of its readings. -/
structure Fails (store : Store) (tree : FileTree) (key : String) (failure : Failure) : Prop where
  entries : store.entries tree key = .error failure
  get : store.get tree key = .error failure

theorem shows_of_entries {found : List Cache.Entry} (h : store.entries tree key = .ok found) :
    store.Shows tree key found :=
  ⟨h, get_of_entries h⟩

theorem fails_of_entries {failure : Failure} (h : store.entries tree key = .error failure) :
    store.Fails tree key failure := by
  refine ⟨h, ?_⟩
  rw [get, h]
  rfl

theorem Fails.not_shows {failure : Failure} {found : List Cache.Entry}
    (h : store.Fails tree key failure) : ¬ store.Shows tree key found := by
  intro hshows
  have hboth := h.entries.symm.trans hshows.entries
  cases hboth

/-- A bucket that is not text fails the reading. -/
theorem fails_of_undecodable (hread : tree.readFile (store.bucketPath key) = .ok bytes)
    (h : ∀ text, decode bytes ≠ .ok text) :
    ∃ fault, store.Fails tree key (.undecodable fault) := by
  cases hdecode : decode bytes with
  | ok text => exact absurd hdecode (h text)
  | error fault =>
    refine ⟨fault, fails_of_entries ?_⟩
    unfold entries
    generalize store.bucketPath key = path at hread ⊢
    simp only [hread, hdecode]
    rfl

/-! ## Lines -/

/-- **A line that is not text** fails the reading of the whole bucket. -/
theorem fails_of_not_text (hread : tree.readFile (store.bucketPath key) = .ok (joined lines))
    (h : ∃ line ∈ lines, ¬ line.IsText) : ∃ fault, store.Fails tree key (.undecodable fault) := by
  refine fails_of_undecodable hread fun text htext => ?_
  obtain ⟨line, hline, hnot⟩ := h
  exact hnot ((Line.decode_joined lines).1 ⟨text, htext⟩ line hline)

/-- **An oversized number** fails it too, if all lines are text. -/
theorem fails_of_oversized (hread : tree.readFile (store.bucketPath key) = .ok (joined lines))
    (htext : ∀ line ∈ lines, line.IsText) (h : ∃ line ∈ lines, ∃ digits, line.Oversized digits) :
    ∃ line ∈ lines, ∃ digits, line.Oversized digits ∧
      store.Fails tree key (.oversizedNumber digits) := by
  obtain ⟨text, hdecode⟩ := (Line.decode_joined lines).2 htext
  obtain ⟨line, hline, digits, hover⟩ := h
  obtain ⟨other, hother, digits, hover, herror⟩ :=
    Line.entriesOf_oversized hdecode hline hover key
  refine ⟨other, hother, digits, hover, fails_of_entries ?_⟩
  rw [entries_of_bucket hread hdecode, herror]

/-- **Lines that hinder nothing** are shown each for itself; where one of them does, nothing is
shown. -/
theorem shows_iff (hread : tree.readFile (store.bucketPath key) = .ok (joined lines)) :
    (∃ found, Line.Listed key lines found ∧ store.Shows tree key found) ↔
      ∀ line ∈ lines, ¬ line.Spoils := by
  constructor
  · rintro ⟨found, _, hshows⟩
    have htext : ∀ line ∈ lines, line.IsText := by
      intro line hline
      by_contra hnot
      obtain ⟨_, hfails⟩ := fails_of_not_text hread ⟨line, hline, hnot⟩
      exact hfails.not_shows hshows
    rintro line hline (hnot | hover)
    · exact hnot (htext line hline)
    · obtain ⟨_, _, _, _, hfails⟩ := fails_of_oversized hread htext ⟨line, hline, hover⟩
      exact hfails.not_shows hshows
  · intro hlines
    have htext : ∀ line ∈ lines, line.IsText := fun line hline =>
      Classical.byContradiction fun hnot => hlines line hline (Or.inl hnot)
    have hsized : ∀ line ∈ lines, ∀ digits, ¬ line.Oversized digits :=
      fun line hline digits hover => hlines line hline (Or.inr ⟨digits, hover⟩)
    obtain ⟨text, hdecode⟩ := (Line.decode_joined lines).2 htext
    refine ⟨_, Line.listed_iff.2 rfl, shows_of_entries ?_⟩
    rw [entries_of_bucket hread hdecode, Line.entriesOf_joined hdecode hsized key]

/-! ## What the index withstands -/

/-- **What the index of a store withstands**: a line that is no valid record costs only itself
unless it hinders the reading, and so does the line in which a bucket was torn off. -/
structure Withstands (store : Store) (tree : FileTree) (key : String) : Prop where
  /-- Behind damage the entries are those of the other lines, if no line hinders the reading, and
  only then. -/
  damaged : ∀ (before after : List Line) (damaged : Line),
    (∀ members, ¬ damaged.IsRecord members) →
    tree.readFile (store.bucketPath key) = .ok (joined (before ++ damaged :: after)) →
    ((∃ found, Line.Listed key (before ++ after) found ∧ store.Shows tree key found) ↔
      ∀ line ∈ before ++ damaged :: after, ¬ line.Spoils)
  /-- A line that is not text takes everything with it. -/
  undecodable : ∀ lines : List Line,
    tree.readFile (store.bucketPath key) = .ok (joined lines) →
    (∃ line ∈ lines, ¬ line.IsText) → ∃ fault, store.Fails tree key (.undecodable fault)
  /-- So does a number of too many digits. -/
  oversized : ∀ lines : List Line,
    tree.readFile (store.bucketPath key) = .ok (joined lines) →
    (∀ line ∈ lines, line.IsText) → (∃ line ∈ lines, ∃ digits, line.Oversized digits) →
    ∃ line ∈ lines, ∃ digits, line.Oversized digits ∧
      store.Fails tree key (.oversizedNumber digits)
  /-- What puts have written may end anywhere but within a character. -/
  cut : ∀ (ledger : List Deposit) (length : Nat),
    tree.readFile (store.bucketPath key) = .ok ((bucketBytes ledger key).take length) →
    ∃ whole torn,
      LeftOf (sharing ledger key) whole torn ((bucketBytes ledger key).take length) ∧
      ((∃ text, decode torn = .ok text) →
        store.Shows tree key ((whole.filter fun p => p.key = key).map Deposit.entry)) ∧
      ((∀ text, decode torn ≠ .ok text) → ∃ fault, store.Fails tree key (.undecodable fault))

/-- **The index withstands damage to lines that stay text**, and no other. -/
theorem withstands (store : Store) (tree : FileTree) (key : String) :
    store.Withstands tree key := by
  constructor
  · intro before after damaged hnone hread
    -- the damaged line adds no entry
    have hlisted : ∀ found, Line.Listed key (before ++ after) found ↔
        Line.Listed key (before ++ damaged :: after) found := by
      intro found
      rw [Line.listed_iff, Line.listed_iff, List.filterMap_append, List.filterMap_append,
        List.filterMap_cons_none (Line.said?_of_not_isRecord hnone key)]
    simp only [hlisted]
    exact shows_iff hread
  · intro lines hread hnot
    exact fails_of_not_text hread hnot
  · intro lines hread htext hover
    exact fails_of_oversized hread htext hover
  · intro ledger length hread
    obtain ⟨whole, torn, hleft⟩ := exists_leftOf (sharing ledger key) length
    refine ⟨whole, torn, hleft, ?_, ?_⟩
    · rintro ⟨more, hmore⟩
      obtain ⟨text, htext, hentries⟩ := hleft.entriesOf hmore key
      refine shows_of_entries ?_
      rw [entries_of_bucket hread htext, hentries]
    · intro hnot
      refine fails_of_undecodable hread fun text htext => ?_
      obtain ⟨more, hmore⟩ := hleft.torn_of_text htext
      exact hnot more hmore

/-! ## Two damaged lines -/

/-- A line whose text was read, with or without a record, hinders nothing. -/
theorem not_spoils_of_membersOf? {line : Line} {found : Option (List (String × Json.Value))}
    (htext : line.text? = .ok text) (h : Cache.Bucket.membersOf? text = .ok found) :
    ¬ line.Spoils := by
  rintro (hnot | ⟨digits, hover⟩)
  · exact hnot ⟨text, htext⟩
  · rw [(Line.oversized_iff htext).1 hover] at h
    cases h

/-- An empty line. -/
def blank : Line := ⟨[], List.not_mem_nil, List.not_mem_nil⟩

/-- A letter as a line, which is text. -/
def garbled : Line := ⟨[0x67], by decide, by decide⟩

/-- The octet `ff`, which is in no text, as a line. -/
def stray : Line := ⟨[0xff], by decide, by decide⟩

/-- **What a put writes to a new bucket**: an empty line, and one that says its entry. -/
theorem exists_line (key url : String) (digest : Digest) {size : Nat} (h : Json.Sized size) :
    ∃ line : Line, lineOctets key url digest size = joined [blank, line] ∧
      (∀ other ∈ [blank, line], ¬ other.Spoils) ∧
      ∀ found, Line.Listed key [blank, line] found →
        found = [.stored key url digest.token size] := by
  obtain ⟨octets, hencode, hfeed, hreturn⟩ :=
    Cache.Bucket.encode_line (Cache.Bucket.visible_payload key url digest.token size)
  have htext : Line.text? ⟨octets, hfeed, hreturn⟩ = .ok
      (Cache.Bucket.checksum (Cache.Bucket.payload key url digest.token size) ++
        '\t' :: Cache.Bucket.payload key url digest.token size) := by
    have hdecode := Encoding.Utf8.decode_encode
      (Cache.Bucket.line (Cache.Bucket.payload key url digest.token size))
    rw [hencode] at hdecode
    obtain ⟨more, hmore, hsame⟩ := (Encoding.Utf8.decode_feed octets _).1 hdecode
    exact hmore.trans (congrArg Except.ok (List.cons.inj hsame).2.symm)
  have hentry : Line.said? key ⟨octets, hfeed, hreturn⟩ =
      some (.stored key url digest.token size) := by
    rw [Line.said?, htext]
    simp only [Cache.Bucket.entryOf?_line h key, if_true]
  refine ⟨⟨octets, hfeed, hreturn⟩, hencode, ?_, ?_⟩
  · rw [List.forall_mem_cons, List.forall_mem_singleton]
    have hblank : blank.text? = .ok [] := rfl
    exact ⟨not_spoils_of_membersOf? hblank rfl,
      not_spoils_of_membersOf? htext (Cache.Bucket.membersOf?_line (Cache.Bucket.read_payload h))⟩
  · intro found hfound
    rw [Line.listed_iff.1 hfound, List.filterMap_cons_none rfl, List.filterMap_cons_some hentry]
    rfl

/-- **A letter as a further line** is no record, and costs the one in front of it nothing. -/
theorem withstands_garbled_line :
    (∀ members, ¬ garbled.IsRecord members) ∧
      (relative ["store"]).Shows
        (oldTree "store" "k" (lineOctets "k" "u" (defaultDigest [97]) 1 ++ 10 :: garbled.octets))
        "k" [.stored "k" "u" (defaultDigest [97]).token 1] := by
  have htext : garbled.text? = .ok ['g'] := rfl
  have hnone : Cache.Bucket.membersOf? ['g'] = .ok none := rfl
  have hnot : ∀ members, ¬ garbled.IsRecord members := by
    intro members hrecord
    rw [Line.isRecord_iff htext, hnone] at hrecord
    cases hrecord
  have hsize : Bytes.Measurable [97] := Bytes.measurable_of_lt (by decide)
  obtain ⟨line, hline, hlines, hentries⟩ := exists_line "k" "u" (defaultDigest [97]) hsize.sized
  have hread := readFile_oldTree "store" (by decide) ⟨by decide, by decide⟩ "k"
    (joined ([blank, line] ++ [garbled]))
  have hall : ∀ other ∈ [blank, line] ++ [garbled], ¬ other.Spoils := by
    rw [List.forall_mem_append, List.forall_mem_singleton]
    exact ⟨hlines, not_spoils_of_membersOf? htext hnone⟩
  obtain ⟨found, hlisted, hshows⟩ :=
    ((withstands _ _ "k").damaged [blank, line] [] garbled hnot hread).2 hall
  rw [List.append_nil] at hlisted
  rw [hentries found hlisted] at hshows
  have hoctets : joined ([blank, line] ++ [garbled]) =
      joined [blank, line] ++ 10 :: garbled.octets := rfl
  rw [hoctets, ← hline] at hshows
  exact ⟨hnot, hshows⟩

/-- **An octet that is in no text** is no record either, and hides the one in front of it. -/
theorem entries_stray_line :
    (∀ members, ¬ stray.IsRecord members) ∧
      (relative ["store"]).Shows
        (oldTree "store" "k" (lineOctets "k" "u" (defaultDigest [97]) 1)) "k"
        [.stored "k" "u" (defaultDigest [97]).token 1] ∧
      ∃ fault, (relative ["store"]).Fails
        (oldTree "store" "k" (lineOctets "k" "u" (defaultDigest [97]) 1 ++ 10 :: stray.octets)) "k"
        (.undecodable fault) := by
  have hnot : ¬ stray.IsText := by
    rintro ⟨text, htext⟩
    cases htext
  have hsize : Bytes.Measurable [97] := Bytes.measurable_of_lt (by decide)
  obtain ⟨line, hline, hlines, hentries⟩ := exists_line "k" "u" (defaultDigest [97]) hsize.sized
  have hread := readFile_oldTree "store" (by decide) ⟨by decide, by decide⟩ "k"
  refine ⟨fun members hrecord => hnot hrecord.isText, ?_, ?_⟩
  · obtain ⟨found, hlisted, hshows⟩ := (shows_iff (hread (joined [blank, line]))).2 hlines
    rw [hentries found hlisted, ← hline] at hshows
    exact hshows
  · have hfails := fails_of_not_text (hread (joined [blank, line, stray]))
      ⟨stray, by simp, hnot⟩
    have hoctets : joined [blank, line, stray] = joined [blank, line] ++ 10 :: stray.octets := rfl
    rw [hoctets, ← hline] at hfails
    exact hfails

end Store

end LockPrefetch
