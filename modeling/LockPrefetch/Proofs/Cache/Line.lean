import LockPrefetch.Proofs.Integrity.Token
import LockPrefetch.Proofs.Json.RoundTrip

/-! # Lines of a bucket

The line of stored content says the same when it is read as when it was written, whatever its
key and its URL are (`entryOf?_line`), and whatever text it was added to: after a damaged line,
a last line without an end or a lone carriage return (`entriesOf_append`). So a bucket that a
line is added to has the old entries of each key, and one more for the key of the line
(`entriesOf_append_line`). -/

set_option autoImplicit false

namespace LockPrefetch

/-- A byte string whose length can be read back from a record. -/
def Bytes.Measurable (data : Bytes) : Prop := data.length < 10 ^ Text.maxDigits

theorem Bytes.Measurable.sized {data : Bytes} (h : data.Measurable) :
    Json.Sized (data.length : Int) := by
  rw [Json.Sized, Int.natAbs_natCast, Text.length_decimal_le_iff (by decide)]
  exact h

theorem Bytes.measurable_of_lt {data : Bytes} (h : data.length < 10) : data.Measurable :=
  Nat.lt_of_lt_of_le h (Nat.le_self_pow (by decide) 10)

namespace Cache

/-- What the record of stored content says. -/
def Entry.stored (key url integrity : String) (size : Nat) : Entry :=
  ⟨key, some integrity, .number Bucket.writtenTime, .number size, some url⟩

namespace Bucket

open Json (Value)

variable {key url integrity : String} {size : Nat}

/-! ## The text of a record -/

/-- The text of the record of stored content. -/
def payload (key url integrity : String) (size : Nat) : List Char :=
  Json.write .compact 0 (record key url integrity size)

theorem plain_record (h : Json.Sized size) : (record key url integrity size).Plain := by
  have hzero : Json.Sized writtenTime := by
    unfold Json.Sized writtenTime
    rw [Int.natAbs_zero, Text.decimal_of_lt (by omega)]
    decide
  simp [record, Value.Plain, Value.PlainMembers, h, hzero]

/-- The text of a record holds no tab and no line end. -/
theorem visible_payload (key url integrity : String) (size : Nat) :
    ∀ c ∈ payload key url integrity size, 0x20 ≤ c.toNat :=
  Json.visible_of_mem_compact (by simp [record, Value.Whole, Value.WholeMembers])

theorem not_mem_payload {c : Char} (hc : c.toNat < 0x20) : c ∉ payload key url integrity size :=
  fun hmem => absurd (visible_payload key url integrity size c hmem) (by omega)

/-- **The text of a record is read as the record.** -/
theorem read_payload (h : Json.Sized size) :
    Json.read (payload key url integrity size) = .ok (record key url integrity size) :=
  Json.read_write Json.Layout.regular_compact (plain_record h)

/-- The digits of a checksum hold no tab and no line end. -/
theorem visible_checksum (text : List Char) : ∀ c ∈ checksum text, 0x20 ≤ c.toNat :=
  fun _ hc => (Hex.plain_of_mem_digits hc).2.2.1

/-- But for the tab, a line of stored content holds no such character either. -/
theorem not_mem_line {c : Char} (hc : c.toNat < 0x20) (htab : c ≠ '\t') :
    c ∉ checksum (payload key url integrity size) ++ '\t' :: payload key url integrity size := by
  intro hmem
  rcases List.mem_append.1 hmem with hmem | hmem
  · exact absurd (visible_checksum _ c hmem) (by omega)
  · rcases List.mem_cons.1 hmem with rfl | hmem
    · exact htab rfl
    · exact not_mem_payload hc hmem

/-- **A line is a line feed in octets too**, and then no other line end. -/
theorem encode_line {text : List Char} (h : ∀ c ∈ text, 0x20 ≤ c.toNat) :
    ∃ octets, Encoding.Utf8.encode (line text) = 10 :: octets ∧ 10 ∉ octets ∧ 13 ∉ octets := by
  have habsent : ∀ a : UInt8, a < 0x20 → a ≠ 9 →
      a ∉ Encoding.Utf8.encode (checksum text ++ '\t' :: text) := by
    intro a ha htab hmem
    have hbehind : Encoding.Utf8.encode ('\t' :: text) = 9 :: Encoding.Utf8.encode text := rfl
    rw [Encoding.Utf8.encode_append, List.mem_append, hbehind, List.mem_cons] at hmem
    rcases hmem with hmem | rfl | hmem
    · exact Encoding.Utf8.not_mem_encode (visible_checksum text) ha hmem
    · exact htab rfl
    · exact Encoding.Utf8.not_mem_encode h ha hmem
  exact ⟨Encoding.Utf8.encode (checksum text ++ '\t' :: text), rfl,
    habsent 10 (by decide) (by decide), habsent 13 (by decide) (by decide)⟩

/-! ## Reading a line -/

theorem membersOf?_line {text : List Char} {members : List (String × Value)}
    (h : Json.read text = .ok (.object members)) :
    membersOf? (checksum text ++ '\t' :: text) = .ok (some members) := by
  have htab : '\t' ∉ checksum text := fun hmem => absurd (visible_checksum text _ hmem) (by decide)
  unfold membersOf?
  rw [Text.cut_append htab]
  simp [h]

/-- **A line is an entry of its own key**, and of no other. -/
theorem entryOf?_line (h : Json.Sized size) (other : String) :
    entryOf? other (checksum (payload key url integrity size) ++
        '\t' :: payload key url integrity size) =
      .ok (if key = other then some (.stored key url integrity size) else none) := by
  rw [entryOf?, membersOf?_line (read_payload h)]
  by_cases hkey : key = other
  · subst hkey
    simp [bind, Except.bind, pure, Except.pure, Ordered.get?, Value.string?, Entry.ofRecord?,
      Entry.integrityOf?, Count.ofJson?, Value.member?, Entry.stored]
  · simp [bind, Except.bind, pure, Except.pure, Ordered.get?, Value.string?, hkey]

/-! ## Line ends -/

theorem unifyLineEnds_of_not_mem {text : List Char} (h : '\r' ∉ text) :
    unifyLineEnds text = text := by
  induction text with
  | nil => rfl
  | cons c rest ih =>
      have hc : c ≠ '\r' := fun e => h (by simp [e])
      have hrest : '\r' ∉ rest := fun m => h (by simp [m])
      rw [unifyLineEnds, ih hrest]
      · rintro tail rfl
        exact absurd rfl hc
      · exact hc

theorem pieces_cons_of_ne {c : Char} (hc : c ≠ '\n') {rest p : List Char} {ps : List (List Char)}
    (h : Text.pieces '\n' rest = p :: ps) : Text.pieces '\n' (c :: rest) = (c :: p) :: ps := by
  rw [Text.pieces, if_neg hc, h]

/-- **A text that goes on with a line feed has the lines of both parts.** A carriage return at
the end of the first part becomes part of the line end, which costs it an empty last line. -/
theorem pieces_unifyLineEnds (text more : List Char) :
    ∃ p ps tail, (tail = [] ∨ tail = [[]]) ∧
      Text.pieces '\n' (unifyLineEnds text) = p :: (ps ++ tail) ∧
      Text.pieces '\n' (unifyLineEnds (text ++ '\n' :: more)) =
        p :: (ps ++ Text.pieces '\n' (unifyLineEnds more)) := by
  have hfeed : ∀ s, Text.pieces '\n' ('\n' :: s) = [] :: Text.pieces '\n' s := fun s => rfl
  induction text using unifyLineEnds.induct with
  | case1 => exact ⟨[], [], [], Or.inl rfl, rfl, rfl⟩
  | case2 rest ih =>
      -- a carriage return with its line feed
      obtain ⟨p, ps, tail, htail, hold, hnew⟩ := ih
      refine ⟨[], p :: ps, tail, htail, ?_, ?_⟩
      · rw [unifyLineEnds, hfeed, hold, List.cons_append]
      · rw [List.cons_append, List.cons_append, unifyLineEnds, hfeed, hnew, List.cons_append]
  | case3 rest hrest ih =>
      -- a carriage return alone; at the end it takes the line feed that follows
      cases rest with
      | nil => exact ⟨[], [], [[]], Or.inr rfl, rfl, rfl⟩
      | cons d rest =>
          obtain ⟨p, ps, tail, htail, hold, hnew⟩ := ih
          refine ⟨[], p :: ps, tail, htail, ?_, ?_⟩
          · rw [unifyLineEnds, hfeed, hold, List.cons_append]
            exact hrest
          · have hbehind : ∀ s, d :: (rest ++ '\n' :: more) ≠ '\n' :: s := by
              intro s heq
              obtain ⟨rfl, -⟩ := List.cons.inj heq
              exact hrest rest rfl
            rw [List.cons_append, List.cons_append, unifyLineEnds, hfeed, ← List.cons_append, hnew,
              List.cons_append]
            exact hbehind
  | case4 c rest hcr hcr' ih =>
      obtain ⟨p, ps, tail, htail, hold, hnew⟩ := ih
      have hc : c ≠ '\r' := fun e => hcr' e
      have hstep : ∀ s, unifyLineEnds (c :: s) = c :: unifyLineEnds s := by
        intro s
        rw [unifyLineEnds]
        · rintro t rfl
          exact absurd rfl hc
        · exact hc
      rw [List.cons_append, hstep, hstep]
      by_cases hlf : c = '\n'
      · subst hlf
        exact ⟨[], p :: ps, tail, htail, by rw [hfeed, hold]; rfl, by rw [hfeed, hnew]; rfl⟩
      · exact ⟨c :: p, ps, tail, htail, pieces_cons_of_ne hlf hold, pieces_cons_of_ne hlf hnew⟩

/-! ## Added text -/

/-- Lines that are read one after another. -/
theorem mapM_entryOf?_append {key : String} {xs ys : List (List Char)}
    {found more : List (Option Entry)} (hxs : xs.mapM (entryOf? key) = .ok found)
    (hys : ys.mapM (entryOf? key) = .ok more) :
    (xs ++ ys).mapM (entryOf? key) = .ok (found ++ more) := by
  simp [List.mapM_append, hxs, hys, bind, Except.bind, pure, Except.pure]

/-- **Entries of an added text come behind the old ones.** -/
theorem entriesOf_append {key : String} {text more : List Char} {old new : List Entry}
    (hold : entriesOf key text = .ok old) (hnew : entriesOf key more = .ok new) :
    entriesOf key (text ++ '\n' :: more) = .ok (old ++ new) := by
  obtain ⟨p, ps, tail, htail, hpieces, hpieces'⟩ := pieces_unifyLineEnds text more
  unfold entriesOf at hold hnew ⊢
  rw [hpieces] at hold
  rw [hpieces']
  cases hmore : (Text.pieces '\n' (unifyLineEnds more)).mapM (entryOf? key) with
  | error failure => simp [hmore, bind, Except.bind] at hnew
  | ok found =>
      cases hfirst : (p :: ps).mapM (entryOf? key) with
      | error failure =>
          rw [← List.cons_append, List.mapM_append, hfirst] at hold
          simp [bind, Except.bind] at hold
      | ok first =>
          -- the empty line that a carriage return leaves is no entry
          have hempty : tail.mapM (entryOf? key) = .ok (tail.map fun _ => none) := by
            rcases htail with rfl | rfl <;> rfl
          rw [← List.cons_append, mapM_entryOf?_append hfirst hempty] at hold
          rw [← List.cons_append, mapM_entryOf?_append hfirst hmore]
          rw [hmore] at hnew
          simp only [bind, Except.bind, pure, Except.pure, Except.ok.injEq] at hold hnew ⊢
          rw [← hold, ← hnew, List.filterMap_append, List.filterMap_append]
          rcases htail with rfl | rfl <;> simp

/-- The entries that a line of stored content adds to a bucket. -/
theorem entriesOf_line (h : Json.Sized size) (other : String) :
    entriesOf other (checksum (payload key url integrity size) ++
        '\t' :: payload key url integrity size) =
      .ok (if key = other then [.stored key url integrity size] else []) := by
  unfold entriesOf
  rw [unifyLineEnds_of_not_mem (not_mem_line (by decide) (by decide)),
    Text.pieces_of_not_mem (not_mem_line (by decide) (by decide)), List.mapM_cons,
    entryOf?_line h other]
  by_cases hkey : key = other
  · simp [hkey, bind, Except.bind, pure, Except.pure]
  · simp [hkey, bind, Except.bind, pure, Except.pure]

/-- **A line that is added to a bucket adds its entry**, and leaves the entries of other keys as
they were. -/
theorem entriesOf_append_line (h : Json.Sized size) {other : String} {text : List Char}
    {old : List Entry} (hold : entriesOf other text = .ok old) :
    entriesOf other (text ++ line (payload key url integrity size)) =
      .ok (old ++ if key = other then [.stored key url integrity size] else []) :=
  entriesOf_append hold (entriesOf_line h other)

end Bucket

end Cache

end LockPrefetch
