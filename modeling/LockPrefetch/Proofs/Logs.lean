import LockPrefetch.Encoding.Utf8.RoundTrip
import LockPrefetch.Log
import LockPrefetch.Proofs.FileTree.Clear
import LockPrefetch.Proofs.Json.Sorting
import Mathlib.Data.List.Forall2

/-! # Logs cannot be broken

A record is written on a line without control characters (`newline_not_mem_line`), so that the
file of a log has one line for each record (`pieces_lines`), whatever texts the records hold. Each
line is read as the object of a record that agrees with the one that was written
(`LogRecord.read_line`), and an object tells its record (`LogRecord.asRead_injective`). -/

set_option autoImplicit false

namespace LockPrefetch

open Json (Value)

/-! ## Lines of a text -/

/-- Lines that are joined, with the end of a line behind them, are the pieces of the text, and
nothing stands behind the last one. -/
theorem Text.pieces_intercalate {sep : Char} {lines : List (List Char)} (hne : lines ≠ [])
    (h : ∀ line ∈ lines, sep ∉ line) :
    pieces sep ([sep].intercalate lines ++ [sep]) = lines ++ [[]] := by
  -- the last line, behind which the text ends, is a case of its own
  induction lines with
  | nil => exact absurd rfl hne
  | cons line rest ih =>
      obtain ⟨hline, hrest⟩ := List.forall_mem_cons.1 h
      cases rest with
      | nil =>
          rw [List.intercalate_singleton, pieces_append hline]
          rfl
      | cons next rest =>
          rw [List.intercalate_cons_cons, List.append_assoc, List.append_assoc,
            List.singleton_append, pieces_append hline, ih (List.cons_ne_nil _ _) hrest]
          rfl

/-! ## Records as they are read -/

namespace LogRecord

variable {r other : LogRecord} {extra : List (String × Value)}

/-- What was added to a record, as a member. -/
def extraMember (r : LogRecord) : List (String × Value) :=
  match r.extra with
  | some extra => [("extra", .object extra)]
  | none => []

/-- The package of a record, or null. -/
def packageValue (r : LogRecord) : Value := (r.package.map Value.string).getD .null

/-- **A record as it is read**: an object with its members in the order of their names. -/
def asRead (r : LogRecord) : Value :=
  .object (r.extraMember ++ [("level", .string r.level), ("message", .string r.message),
    ("operation", .string r.operation), ("package", r.packageValue)])

/-- **An object tells its record.** -/
theorem asRead_injective : Function.Injective asRead := by
  rintro ⟨level, operation, package, message, extra⟩
    ⟨level', operation', package', message', extra'⟩ h
  -- objects with and without the member of what was added differ in length
  cases extra <;> cases extra' <;> cases package <;> cases package' <;>
    simp_all [asRead, extraMember, packageValue]

/-- The package that an object names. -/
def packageIn (value : Value) : Option String := (value.member? "package").bind Value.string?

theorem packageIn_asRead (r : LogRecord) : packageIn r.asRead = r.package := by
  obtain ⟨level, operation, package, message, extra⟩ := r
  cases extra <;> cases package <;> rfl

/-- **Records agree** if they differ at most in the order of what was added to them. -/
structure Agrees (r other : LogRecord) : Prop where
  level : r.level = other.level
  operation : r.operation = other.operation
  package : r.package = other.package
  message : r.message = other.message
  extra : Option.Rel List.Perm r.extra other.extra

/-! ## Lines -/

/-- **A record of texts**: what was added to it maps names to texts, each name once. -/
def Textual (r : LogRecord) : Prop :=
  ∀ extra ∈ r.extra, (extra.map Prod.fst).Nodup ∧ ∀ member ∈ extra, ∃ text, member.2 = .string text

/-- The record with what was added to it in the order of names. -/
def ordered (r : LogRecord) : LogRecord := { r with extra := r.extra.map Value.byName }

theorem ordered_agrees (r : LogRecord) : r.ordered.Agrees r where
  level := rfl
  operation := rfl
  package := rfl
  message := rfl
  extra := by
    unfold ordered
    cases r.extra with
    | none => exact .none
    | some extra => exact .some (Value.byName_perm extra)

theorem plain_toJson (h : r.Textual) : r.toJson.Plain := by
  obtain ⟨level, operation, package, message, extra⟩ := r
  have hpackage : ((package.map Value.string).getD .null).Plain := by cases package <;> trivial
  cases extra with
  | none =>
      refine ⟨by simp, Value.plainMembers_iff.2 ?_⟩
      simpa using ⟨trivial, trivial, hpackage, trivial⟩
  | some extra =>
      obtain ⟨hnodup, htexts⟩ := h extra rfl
      have hextra : (Value.object extra).Plain := by
        refine ⟨hnodup, Value.plainMembers_iff.2 fun member hmember => ?_⟩
        obtain ⟨text, htext⟩ := htexts member hmember
        rw [htext]
        trivial
      refine ⟨by simp, Value.plainMembers_iff.2 ?_⟩
      simpa using ⟨trivial, trivial, hpackage, trivial, hextra⟩

/-- Texts have nothing in them to be sorted. -/
theorem sortedMembers_of_texts (h : ∀ member ∈ extra, ∃ text, member.2 = .string text) :
    Value.sortedMembers extra = extra := by
  rw [Value.sortedMembers_eq_map]
  conv_rhs => rw [← List.map_id extra]
  refine List.map_congr_left fun member hmember => Prod.ext rfl ?_
  obtain ⟨text, htext⟩ := h member hmember
  simp only [htext, Value.sorted, id_eq]

/-- The names of a record in order. -/
theorem byName_members (level operation package message : Value) :
    Value.byName [("level", level), ("operation", operation), ("package", package),
        ("message", message)] =
      [("level", level), ("message", message), ("operation", operation), ("package", package)] := by
  simp [Value.byName, List.mergeSort, List.MergeSort.Internal.splitInTwo]

theorem byName_extended (level operation package message extra : Value) :
    Value.byName [("level", level), ("operation", operation), ("package", package),
        ("message", message), ("extra", extra)] =
      [("extra", extra), ("level", level), ("message", message), ("operation", operation),
        ("package", package)] := by
  simp [Value.byName, List.mergeSort, List.MergeSort.Internal.splitInTwo]

/-- What is written of a record, with its members in order. -/
theorem sorted_toJson (h : r.Textual) : r.toJson.sorted = r.ordered.asRead := by
  obtain ⟨level, operation, package, message, extra⟩ := r
  have hpackage : ((package.map Value.string).getD .null).sorted =
      (package.map Value.string).getD .null := by cases package <;> rfl
  cases extra with
  | none =>
      simp only [toJson, List.append_nil, Value.sorted, Value.sortedMembers, hpackage,
        byName_members]
      rfl
  | some extra =>
      have hextra : Value.sortedMembers extra = extra := sortedMembers_of_texts (h extra rfl).2
      simp only [toJson, List.cons_append, List.nil_append, Value.sorted, Value.sortedMembers,
        hpackage, hextra, byName_extended]
      rfl

/-- **A line is read as its record.** -/
theorem read_line (h : r.Textual) : Json.read (Log.line r).toList = .ok r.ordered.asRead := by
  have hread := Value.read_sorted Json.Layout.regular_line (plain_toJson h) [] nofun
  rw [List.append_nil] at hread
  rw [Log.line, hread, sorted_toJson h]

/-- **No line ends within a line.** -/
theorem newline_not_mem_line (h : r.Textual) : '\n' ∉ (Log.line r).toList := fun hmem =>
  absurd (Value.visible_of_mem_line (plain_toJson h) '\n' hmem) (by decide)

end LogRecord

/-! ## Files -/

namespace Log

open LogRecord

variable {log found : Log} {path : Path} {tree after : FileTree} {anchor : Path.Anchor}
  {above below : List String} {start : Location}

theorem toList_lines (log : Log) : log.lines.toList =
    ['\n'].intercalate (log.map fun r => (line r).toList) ++ ['\n'] := by
  rw [lines, String.toList_append, String.toList_intercalate, List.map_map]
  rfl

/-- **The text of a log** is cut into a line for each record and an empty piece. -/
theorem pieces_lines (hne : log ≠ []) (h : ∀ r ∈ log, r.Textual) :
    Text.pieces '\n' log.lines.toList = (log.map fun r => (line r).toList) ++ [[]] := by
  rw [toList_lines]
  refine Text.pieces_intercalate (by simpa using hne) fun text htext => ?_
  obtain ⟨r, hr, rfl⟩ := List.mem_map.1 htext
  exact newline_not_mem_line (h r hr)

/-- The lines of a log are read one after another. -/
theorem mapM_read_lines (h : ∀ r ∈ log, r.Textual) :
    (log.map fun r => (line r).toList).mapM Json.read = .ok ((log.map ordered).map asRead) := by
  induction log with
  | nil => rfl
  | cons r rest ih =>
      obtain ⟨hr, hrest⟩ := List.forall_mem_cons.1 h
      rw [List.map_cons, List.mapM_cons, read_line hr, ih hrest]
      rfl

/-- The objects that name a package are those of the records about it. -/
theorem filter_packageIn (found : Log) (package : String) :
    ((found.map asRead).filter fun value => packageIn value == some package) =
      (found.about package).map asRead := by
  rw [List.filter_map, about]
  congr 1
  exact List.filter_congr fun r _ => by rw [Function.comp_apply, packageIn_asRead]

/-- Logs whose records agree say the same about each package. -/
theorem agree_about (h : List.Forall₂ Agrees found log) (package : String) :
    List.Forall₂ Agrees (found.about package) (log.about package) :=
  List.rel_filter (fun _ _ hagrees => by simp only [hagrees.package]) h

/-- The file of a log that has been written holds its text. -/
theorem readFile_of_write (h : (log.write path).run tree = (.ok (), after)) :
    after.readFile path = .ok (Encoding.Utf8.encode log.lines.toList) :=
  FileTree.readFile_changeBelow h

/-- A log is written where nothing is in the way of its file. -/
theorem write_of_free (log : Log) (hrooted : tree.Rooted ⟨anchor, above⟩ start)
    (hfree : tree.Free anchor above start below) :
    ∃ after, (log.write ⟨anchor, above ++ below⟩).run tree = (.ok (), after) := by
  have hreach := hrooted.reaches hfree.admissible.above
  obtain ⟨after, hrun, _, _⟩ := FileTree.run_changeBelow_free hreach hfree
    fun _ => Encoding.Utf8.encode log.lines.toList
  exact ⟨after, hrun⟩

/-! ## Main statement -/

/-- **A text holds a log**: cut at the ends of lines it has a line for each record and an empty
piece, and the lines are read as the objects of the records that were found. -/
structure HeldBy (log : Log) (text : List Char) (lines : List (List Char)) (found : Log) :
    Prop where
  split : Text.pieces '\n' text = lines ++ [[]]
  count : lines.length = log.length
  read : lines.mapM Json.read = .ok (found.map asRead)
  /-- These records agree with the records of the log, in order. -/
  recorded : List.Forall₂ Agrees found log
  /-- Those objects that name a package are of records that agree with the records about it. -/
  about : ∀ package,
    ((found.map asRead).filter fun value => packageIn value == some package) =
        (found.about package).map asRead ∧
      List.Forall₂ Agrees (found.about package) (log.about package)

/-- **Nothing that is recorded breaks a log**: the text of records of texts, of which there is at
least one, holds the log. It is what stands in the file after the log has been written, and it is
written wherever nothing is in the way. -/
theorem unbroken (hne : log ≠ []) (h : ∀ r ∈ log, r.Textual) :
    (∃ lines found, log.HeldBy log.lines.toList lines found) ∧
      (∀ path tree after, (log.write path).run tree = (.ok (), after) →
        ∃ bytes, after.readFile path = .ok bytes ∧
          Encoding.Utf8.decode bytes = .ok log.lines.toList) ∧
      ∀ (tree : FileTree) anchor above start below, tree.Rooted ⟨anchor, above⟩ start →
        tree.Free anchor above start below →
        ∃ after, (log.write ⟨anchor, above ++ below⟩).run tree = (.ok (), after) := by
  have hagree : List.Forall₂ Agrees (log.map ordered) log :=
    List.forall₂_map_left_iff.2 (List.forall₂_same.2 fun r _ => r.ordered_agrees)
  refine ⟨⟨log.map fun r => (line r).toList, log.map ordered, ?_⟩, ?_, ?_⟩
  · exact ⟨pieces_lines hne h, List.length_map _, mapM_read_lines h, hagree,
      fun package => ⟨filter_packageIn _ package, agree_about hagree package⟩⟩
  · intro path tree after hwrite
    exact ⟨_, readFile_of_write hwrite, Encoding.Utf8.decode_encode _⟩
  · intro tree anchor above start below hrooted hfree
    exact write_of_free log hrooted hfree

/-- **A text tells its log**, but for the order of what was added to each record. -/
theorem ordered_of_lines_eq {other : Log} (hne : log ≠ []) (h : ∀ r ∈ log, r.Textual)
    (hother_ne : other ≠ []) (hother : ∀ r ∈ other, r.Textual) (hlines : log.lines = other.lines) :
    log.map ordered = other.map ordered := by
  have hpieces := pieces_lines hne h
  rw [hlines, pieces_lines hother_ne hother] at hpieces
  have hread := mapM_read_lines h
  rw [← List.append_cancel_right hpieces, mapM_read_lines hother, Except.ok.injEq] at hread
  exact (asRead_injective.list_map hread).symm

/-! ## A log of hostile names -/

/-- A package whose name ends its line, closes its string and tells of another package. -/
def hostile : String := "node_modules/a\n\"\r\u2028𝒜\", \"package\": \"b"

/-- A download of this package, and one of another package that failed. -/
def hostileLog : Log :=
  [⟨usualLevel, "fetch", some hostile, hostile,
      some [("url", .string "https://r/\n\u0085"), ("package", .string "b")]⟩,
    ⟨"error", "prefetch", some "b", "failed to prefetch b", none⟩]

/-- The log can be written, and what is written holds it. -/
theorem unbroken_hostile : hostileLog ≠ [] ∧ (∀ r ∈ hostileLog, r.Textual) ∧
    ∃ lines found after bytes, hostileLog.HeldBy hostileLog.lines.toList lines found ∧
      (hostileLog.write (Path.ofString "logs/run.jsonl")).run FileTree.empty = (.ok (), after) ∧
      after.readFile (Path.ofString "logs/run.jsonl") = .ok bytes ∧
      Encoding.Utf8.decode bytes = .ok hostileLog.lines.toList := by
  have hne : hostileLog ≠ [] := List.cons_ne_nil _ _
  have htextual : ∀ r ∈ hostileLog, r.Textual := by
    refine List.forall_mem_cons.2 ⟨?_, List.forall_mem_cons.2 ⟨nofun, nofun⟩⟩
    rintro extra ⟨⟩
    refine ⟨by decide, List.forall_mem_cons.2 ⟨⟨_, rfl⟩, List.forall_mem_cons.2 ⟨⟨_, rfl⟩, nofun⟩⟩⟩
  obtain ⟨⟨lines, found, hheld⟩, hfile, _⟩ := unbroken hne htextual
  obtain ⟨after, hwrite⟩ : ∃ after,
      (hostileLog.write (Path.ofString "logs/run.jsonl")).run FileTree.empty = (.ok (), after) :=
    ⟨_, rfl⟩
  obtain ⟨bytes, hread, hdecode⟩ := hfile _ _ _ hwrite
  exact ⟨hne, htextual, lines, found, after, bytes, hheld, hwrite, hread, hdecode⟩

end Log

end LockPrefetch
