import LockPrefetch.Proofs.Cache.History
import LockPrefetch.Proofs.Cache.Lines
import LockPrefetch.Proofs.FileTree.Refusals

/-! # Refusals that are reported

What the file tree refuses a store is reported as a failure of the cache, with the text of the
refusal and the path that it is about, whichever path component stands in the way. Two refusals are
not (`Unreported`). The look whether content is there stands outside the report, so that a path
whose name is too long fails a put, and the question whether content is there, with the refusal of
the file tree itself. And a NUL character in the root is found before the file tree is asked. The
main statement is that there are no others (`reported_iff`). -/

set_option autoImplicit false

namespace LockPrefetch.Store

open FileTree (Action about)
open Cache (contentNames bucketNames)
open Cache.Bucket (checksum unifyLineEnds)

variable {store : Store} {tree mid after : FileTree} {digest : Digest} {path : Path}
  {key url token operationName : String} {data : Bytes} {declared : Option String}
  {failure : Failure} {fault : FileTree.Fault} {operation : Operation} {present : Bool}

/-! ## What is reported -/

/-- **A failure that is reported**: one of the cache, or content that is not what it should be. -/
def Reported (failure : Failure) : Prop :=
  ∃ report, failure = .diagnosed report ∧
    (report.kind = .cacheIo ∨ report.kind = .integrityMismatch)

/-- A refusal is reported unless it is for a NUL character. -/
theorem reported_refused (h : fault.refusal ≠ .nulCharacter) :
    Reported (refused operationName path fault) := by
  have hsystem : fault.isSystem = true := by simpa [FileTree.Fault.isSystem] using h
  refine ⟨_, by rw [refused, if_pos hsystem], Or.inl rfl⟩

theorem refused_nul (h : fault.refusal = .nulCharacter) :
    refused operationName path fault = .fileTree fault := by
  have hsystem : ¬ fault.isSystem = true := by simp [FileTree.Fault.isSystem, h]
  rw [refused, if_neg hsystem]

/-- Content that is not what a digest says is reported. -/
theorem reported_of_verify (htoken : ∀ t, declared = some t → ∃ d, Digest.parse t = .ok d)
    (h : verify key url data declared = .error failure) : Reported failure := by
  cases declared with
  | none =>
      rw [verify_default] at h
      cases h
  | some t =>
      obtain ⟨d, hparse⟩ := htoken t rfl
      obtain ⟨a, ha, _⟩ := Digest.supported_of_parse hparse
      have hcompute : Digest.compute data d.name = .ok ⟨d.name, a.digest data⟩ :=
        Digest.compute_eq_ok_iff.2 ⟨rfl, a, ha, rfl⟩
      simp only [verify, hparse, hcompute, mapError_ok, bind, Except.bind] at h
      split at h
      · cases h
      · cases h
        exact ⟨_, rfl, Or.inr rfl⟩

/-! ## NUL characters -/

theorem holdsNul_below {root : Path} {names : List String}
    (hnames : (names.any fun name => name.toList.any (·.toNat == 0)) = false) :
    Path.HoldsNul ⟨root.anchor, root.names ++ names⟩ ↔ root.HoldsNul := by
  rw [FileTree.holdsNul_append]
  simp [Path.HoldsNul, hnames]

/-- **The paths of a store hold a NUL character exactly if its root does.** -/
theorem holdsNul_contentPath (hd : digest.Supported) :
    (store.contentPath digest).HoldsNul ↔ store.root.HoldsNul := by
  rw [contentPath_eq store hd]
  exact holdsNul_below (modest_contentNames hd).noNul

theorem holdsNul_bucketPath (key : String) :
    (store.bucketPath key).HoldsNul ↔ store.root.HoldsNul := by
  rw [bucketPath_eq]
  exact holdsNul_below (Cache.noNul_bucketNames key)

theorem holdsNul_parent (hd : digest.Supported) (h : store.root.HoldsNul) :
    (store.contentPath digest).parent.HoldsNul := by
  rw [contentPath_eq store hd, Path.parent,
    List.dropLast_append_of_ne_nil (Cache.contentNames_ne_nil digest)]
  exact FileTree.holdsNul_append.2 (Or.inl h)

/-! ## The steps of a put -/

/-- **The look fails** with the refusal of the file tree, and only for a name that is too long. -/
theorem hasContent_eq_error_iff : store.hasContent tree digest = .error failure ↔
    tree.lookUp (store.contentPath digest) = .error .nameTooLong ∧
      failure = .fileTree (about (store.contentPath digest) .nameTooLong) := by
  cases hlook : tree.lookUp (store.contentPath digest) with
  | ok node => simp [hasContent_of_found hlook]
  | error refusal =>
      by_cases hlong : refusal = .nameTooLong
      · subst hlong
        unfold hasContent FileTree.pathExists
        generalize store.contentPath digest = path at hlook ⊢
        simp [hlook, eq_comm]
      · simp [hasContent_of_refused hlook hlong, hlong]

/-- **A change to a file is refused with a report**, if the path holds no NUL character. -/
theorem reported_of_changeBelow {change : Bytes → Bytes} (hpath : ¬ path.HoldsNul)
    (h : (Action.restating (refused operationName path) (FileTree.changeBelow path change)).run
      tree = (.error failure, after)) : Reported failure := by
  rw [Action.run_restating] at h
  rcases hrun : (FileTree.changeBelow path change).run tree with ⟨result, last⟩
  rw [hrun] at h
  cases result with
  | ok _ => cases h
  | error first =>
      cases h
      exact reported_refused fun hnul => hpath (FileTree.nul_of_changeBelow hrun hnul)

theorem reported_of_placeContent (hd : digest.Supported) (hroot : ¬ store.root.HoldsNul)
    (h : (store.placeContent digest data).run tree = (.error failure, after)) :
    Reported failure := by
  rw [placeContent_eq] at h
  exact reported_of_changeBelow (mt (holdsNul_contentPath hd).1 hroot) h

theorem reported_of_appendRecord {size : Nat} (hroot : ¬ store.root.HoldsNul)
    (h : (store.appendRecord key url digest size).run tree = (.error failure, after)) :
    Reported failure := by
  rw [appendRecord_eq] at h
  exact reported_of_changeBelow (mt (holdsNul_bucketPath key).1 hroot) h

theorem reported_of_layDown (hd : digest.Supported) (hroot : ¬ store.root.HoldsNul)
    (h : (store.layDown digest data present).run tree = (.error failure, after)) :
    Reported failure := by
  cases present with
  | true =>
      rw [layDown, if_pos rfl, Action.run_pure] at h
      cases h
  | false =>
      rw [layDown, if_neg (by simp)] at h
      exact reported_of_placeContent hd hroot h

/-- A NUL character in the root fails a put when the content is laid down. -/
theorem run_put_nul (hverify : verify key url data declared = .ok digest)
    (hroot : store.root.HoldsNul) :
    (store.put key url data declared).run tree =
      (.error (.fileTree (about (store.contentPath digest).parent .nulCharacter)), tree) := by
  have hd := (verify_eq_ok_iff.1 hverify).1.supported
  have hlook : tree.lookUp (store.contentPath digest) = .error .nulCharacter :=
    FileTree.lookUp_eq_nul_iff.2 ((holdsNul_contentPath hd).2 hroot)
  have habsent := hasContent_of_refused hlook nofun
  have hplace : (store.placeContent digest data).run tree =
      (.error (.fileTree (about (store.contentPath digest).parent .nulCharacter)), tree) := by
    rw [placeContent_eq, run_restating_error
      (FileTree.run_changeBelow_nul (holdsNul_parent hd hroot) _), refused_nul rfl]
  rw [run_put]
  simp only [hverify, habsent, layDown, Bool.false_eq_true, if_false, hplace]

/-- A name that is too long fails a put at the look. -/
theorem run_put_long (hverify : verify key url data declared = .ok digest)
    (hlook : tree.lookUp (store.contentPath digest) = .error .nameTooLong) :
    (store.put key url data declared).run tree =
      (.error (.fileTree (about (store.contentPath digest) .nameTooLong)), tree) := by
  have hfails := hasContent_eq_error_iff.2 ⟨hlook, rfl⟩
  rw [run_put]
  simp only [hverify, hfails]

/-- **Whatever else fails a put is reported.** -/
theorem reported_of_put (htoken : ∀ t, declared = some t → ∃ d, Digest.parse t = .ok d)
    (hroot : ¬ store.root.HoldsNul)
    (hlook : ∀ d, verify key url data declared = .ok d →
      tree.lookUp (store.contentPath d) ≠ .error .nameTooLong)
    (h : (store.put key url data declared).run tree = (.error failure, after)) :
    Reported failure := by
  rw [run_put] at h
  cases hverify : verify key url data declared with
  | error found =>
      rw [hverify] at h
      cases h
      exact reported_of_verify htoken hverify
  | ok digest =>
      have hd := (verify_eq_ok_iff.1 hverify).1.supported
      cases hhas : store.hasContent tree digest with
      | error found => exact absurd (hasContent_eq_error_iff.1 hhas).1 (hlook digest hverify)
      | ok present =>
          rcases hlay : (store.layDown digest data present).run tree with ⟨laid, mid⟩
          simp only [hverify, hhas, hlay] at h
          cases laid with
          | error found =>
              cases h
              exact reported_of_layDown hd hroot hlay
          | ok _ =>
              rcases hadd : (store.appendRecord key url digest data.length).run mid with
                ⟨added, last⟩
              simp only [hadd] at h
              cases added with
              | error found =>
                  cases h
                  exact reported_of_appendRecord hroot hadd
              | ok _ => cases h

/-! ## Reading -/

/-- **A bucket that can be read**: it is text, and no record in it holds a whole number of too many
digits. -/
def Legible (bytes : Bytes) : Prop :=
  ∃ text, Encoding.Utf8.decode bytes = .ok text ∧
    ∀ record digits, checksum record ++ '\t' :: record ∈ Text.pieces '\n' (unifyLineEnds text) →
      Json.read record ≠ .error (.oversized digits)

theorem Legible.entriesOf {bytes : Bytes} (h : Legible bytes) (key : String) :
    ∃ text found, Encoding.Utf8.decode bytes = .ok text ∧
      Cache.Bucket.entriesOf key text = .ok found := by
  obtain ⟨text, htext, hsized⟩ := h
  cases hfound : Cache.Bucket.entriesOf key text with
  | ok found => exact ⟨text, found, htext, hfound⟩
  | error failure =>
      unfold Cache.Bucket.entriesOf at hfound
      rcases bind_eq_error_iff.1 hfound with hlines | ⟨_, _, hnothing⟩
      · obtain ⟨_, line, _, hsplit, _, hline⟩ := mapM_eq_error_iff.1 hlines
        obtain ⟨record, digits, rfl, hread, _⟩ :=
          Cache.Bucket.membersOf?_eq_error_iff.1 (Cache.Bucket.entryOf?_eq_error_iff.1 hline)
        exact absurd hread (hsized record digits (by rw [hsplit]; simp))
      · cases hnothing

/-- What entries are returned for can be read. -/
theorem legible_of_entriesOf {bytes : Bytes} {text : List Char} {found : List Cache.Entry}
    (htext : Encoding.Utf8.decode bytes = .ok text)
    (hfound : Cache.Bucket.entriesOf key text = .ok found) : Legible bytes := by
  refine ⟨text, htext, fun record digits hline hread => ?_⟩
  unfold Cache.Bucket.entriesOf at hfound
  obtain ⟨_, hlines, _⟩ := bind_eq_ok_iff.1 hfound
  obtain ⟨before, after, hsplit⟩ := List.append_of_mem hline
  rw [hsplit] at hlines
  obtain ⟨_, _, _, _, hown, _, _⟩ := mapM_append_cons_eq_ok hlines
  rw [Cache.Bucket.entryOf?_eq_error_iff.2
    (Cache.Bucket.membersOf?_eq_error_iff.2 ⟨record, digits, rfl, hread, rfl⟩)] at hown
  cases hown

/-- A bucket that cannot be got at fails the reading, unless it is missing. -/
theorem refused_of_entries
    (hlegible : ∀ bytes, tree.readFile (store.bucketPath key) = .ok bytes → Legible bytes)
    (h : store.entries tree key = .error failure) :
    ∃ fault, tree.readFile (store.bucketPath key) = .error fault ∧
      failure = refused "cache_read" (store.bucketPath key) fault := by
  cases hread : tree.readFile (store.bucketPath key) with
  | ok bytes =>
      obtain ⟨text, found, htext, hfound⟩ := (hlegible bytes hread).entriesOf key
      rw [entries_of_bucket hread htext, hfound] at h
      cases h
  | error fault =>
      unfold entries at h
      generalize store.bucketPath key = path at hread h ⊢
      simp only [hread] at h
      split at h
      · cases h
      · cases h
        exact ⟨fault, rfl, rfl⟩

theorem reported_of_entries (hroot : ¬ store.root.HoldsNul)
    (hlegible : ∀ bytes, tree.readFile (store.bucketPath key) = .ok bytes → Legible bytes)
    (h : store.entries tree key = .error failure) : Reported failure := by
  obtain ⟨fault, hread, rfl⟩ := refused_of_entries hlegible h
  refine reported_refused fun hnul => hroot ?_
  exact (holdsNul_bucketPath key).1 (FileTree.nul_of_readFile hread hnul)

theorem entries_nul (hroot : store.root.HoldsNul) (key : String) :
    store.entries tree key = .error (.fileTree (about (store.bucketPath key) .nulCharacter)) := by
  have hread : tree.readFile (store.bucketPath key) =
      .error (about (store.bucketPath key) .nulCharacter) :=
    FileTree.readFile_nul ((holdsNul_bucketPath key).2 hroot)
  unfold entries
  generalize store.bucketPath key = path at hread ⊢
  simp only [hread, about, reduceCtorEq, if_false]
  rw [refused_nul rfl]

theorem get_eq_error_iff : store.get tree key = .error failure ↔
    store.entries tree key = .error failure := by
  unfold get
  rw [bind_eq_error_iff]
  constructor
  · rintro (h | ⟨_, _, h⟩)
    · exact h
    · cases h
  · exact Or.inl

theorem reported_of_read (hparse : Digest.parse token = .ok digest)
    (hroot : ¬ store.root.HoldsNul) (h : store.read tree token = .error failure) :
    Reported failure := by
  have hd := Digest.supported_of_parse hparse
  cases hread : tree.readFile (store.contentPath digest) with
  | error fault =>
      unfold read at h
      simp only [hparse, mapError_ok, bind, Except.bind] at h
      have hnul : fault.refusal ≠ .nulCharacter := fun hnul =>
        hroot ((holdsNul_contentPath hd).1 (FileTree.nul_of_readFile hread hnul))
      generalize store.contentPath digest = path at hread h
      simp only [hread, mapError_error] at h
      cases h
      exact reported_refused hnul
  | ok bytes =>
      obtain ⟨a, ha, _⟩ := hd
      have hcompute : Digest.compute bytes digest.name = .ok ⟨digest.name, a.digest bytes⟩ :=
        Digest.compute_eq_ok_iff.2 ⟨rfl, a, ha, rfl⟩
      unfold read at h
      simp only [hparse, mapError_ok, bind, Except.bind] at h
      generalize store.contentPath digest = path at hread h
      simp only [hread, hcompute, mapError_ok] at h
      split at h
      · cases h
      · cases h
        exact ⟨_, rfl, Or.inr rfl⟩

theorem read_nul (hparse : Digest.parse token = .ok digest) (hroot : store.root.HoldsNul) :
    store.read tree token =
      .error (.fileTree (about (store.contentPath digest) .nulCharacter)) := by
  have hread : tree.readFile (store.contentPath digest) =
      .error (about (store.contentPath digest) .nulCharacter) :=
    FileTree.readFile_nul ((holdsNul_contentPath (Digest.supported_of_parse hparse)).2 hroot)
  unfold read
  simp only [hparse, mapError_ok, bind, Except.bind]
  generalize store.contentPath digest = path at hread ⊢
  simp only [hread, mapError_error]
  rw [refused_nul rfl]

/-! ## All operations -/

/-- **An operation that is asked well**: its token denotes a digest, and the bucket that it reads
can be read. -/
def WellAsked (store : Store) (tree : FileTree) : Operation → Prop
  | .put p => ∀ t, p.declared = some t → ∃ d, Digest.parse t = .ok d
  | .get key | .entries key =>
    ∀ bytes, tree.readFile (store.bucketPath key) = .ok bytes → Legible bytes
  | .contains token | .read token => ∃ d, Digest.parse token = .ok d
  | .reopen => True

/-- **The refusals that are not reported**, but come up as they are. -/
inductive Unreported (store : Store) (tree : FileTree) : Operation → FileTree.Fault → Prop
  /-- A put whose content has a path with a name that is too long. -/
  | putLong {p : Put} {digest : Digest}
      (hverify : verify p.key p.url p.data p.declared = .ok digest)
      (hlook : tree.lookUp (store.contentPath digest) = .error .nameTooLong) :
      Unreported store tree (.put p) (about (store.contentPath digest) .nameTooLong)
  /-- The question whether there is such content. -/
  | containsLong {token : String} {digest : Digest} (hparse : Digest.parse token = .ok digest)
      (hlook : tree.lookUp (store.contentPath digest) = .error .nameTooLong) :
      Unreported store tree (.contains token) (about (store.contentPath digest) .nameTooLong)
  /-- A NUL character in the root. -/
  | putNul {p : Put} {digest : Digest}
      (hverify : verify p.key p.url p.data p.declared = .ok digest) (hroot : store.root.HoldsNul) :
      Unreported store tree (.put p) (about (store.contentPath digest).parent .nulCharacter)
  | getNul {key : String} (hroot : store.root.HoldsNul) :
      Unreported store tree (.get key) (about (store.bucketPath key) .nulCharacter)
  | entriesNul {key : String} (hroot : store.root.HoldsNul) :
      Unreported store tree (.entries key) (about (store.bucketPath key) .nulCharacter)
  | readNul {token : String} {digest : Digest} (hparse : Digest.parse token = .ok digest)
      (hroot : store.root.HoldsNul) :
      Unreported store tree (.read token) (about (store.contentPath digest) .nulCharacter)

/-- A refusal that is not reported is what the operation fails with, and it changes nothing. -/
theorem run_of_unreported (h : store.Unreported tree operation fault) :
    (operation.action store).run tree = (.error (.fileTree fault), tree) := by
  cases h with
  | putLong hverify hlook => exact Operation.run_put_error (run_put_long hverify hlook)
  | containsLong hparse hlook =>
      have hfails := hasContent_eq_error_iff.2 ⟨hlook, rfl⟩
      rw [Operation.action, Action.run_inspect, contains_of_parse hparse, hfails]
      rfl
  | putNul hverify hroot => exact Operation.run_put_error (run_put_nul hverify hroot)
  | getNul hroot =>
      rw [Operation.action, Action.run_inspect, get_eq_error_iff.2 (entries_nul hroot _)]
      rfl
  | entriesNul hroot =>
      rw [Operation.action, Action.run_inspect, entries_nul hroot]
      rfl
  | readNul hparse hroot =>
      rw [Operation.action, Action.run_inspect, read_nul hparse hroot]
      rfl

/-- A result that is restated fails as it did. -/
theorem error_of_map {α β : Type} {f : α → β} {result : Except Failure α}
    (h : result.map f = .error failure) : result = .error failure := by
  cases result with
  | ok a => cases h
  | error found =>
      cases h
      rfl

/-- A put fails with a report, or for one of the two reasons. -/
theorem reported_or_unreported_put
    (htoken : ∀ t, declared = some t → ∃ d, Digest.parse t = .ok d)
    (h : (store.put key url data declared).run tree = (.error failure, after)) :
    Reported failure ∨ ∃ fault, store.Unreported tree (.put ⟨key, url, data, declared⟩) fault := by
  by_cases hescapes : ∃ fault, store.Unreported tree (.put ⟨key, url, data, declared⟩) fault
  · exact Or.inr hescapes
  refine Or.inl ?_
  cases hverify : verify key url data declared with
  | error found =>
      rw [run_put] at h
      simp only [hverify] at h
      cases h
      exact reported_of_verify htoken hverify
  | ok digest =>
      refine reported_of_put htoken (fun hroot => hescapes ⟨_, .putNul hverify hroot⟩) ?_ h
      intro d hd hlook
      exact hescapes ⟨_, .putLong hd hlook⟩

/-- **Every failure is reported, or is one of the refusals that are not.** -/
theorem reported_or_unreported (hasked : store.WellAsked tree operation)
    (h : (operation.action store).run tree = (.error failure, after)) :
    Reported failure ∨ ∃ fault, store.Unreported tree operation fault := by
  cases operation with
  | put p =>
      obtain ⟨key, url, data, declared⟩ := p
      rcases hput : (store.put key url data declared).run tree with ⟨result, last⟩
      cases result with
      | ok sri =>
          rw [Operation.run_put_ok hput] at h
          cases h
      | error found =>
          rw [Operation.run_put_error hput] at h
          cases h
          have htoken : ∀ t, declared = some t → ∃ d, Digest.parse t = .ok d := hasked
          exact reported_or_unreported_put htoken hput
  | get key =>
      rw [Operation.action, Action.run_inspect, Prod.mk.injEq] at h
      have hget : store.get tree key = .error failure := error_of_map h.1
      have hentries := get_eq_error_iff.1 hget
      by_cases hroot : store.root.HoldsNul
      · exact Or.inr ⟨_, .getNul hroot⟩
      · exact Or.inl (reported_of_entries hroot hasked hentries)
  | entries key =>
      rw [Operation.action, Action.run_inspect, Prod.mk.injEq] at h
      have hentries : store.entries tree key = .error failure := error_of_map h.1
      by_cases hroot : store.root.HoldsNul
      · exact Or.inr ⟨_, .entriesNul hroot⟩
      · exact Or.inl (reported_of_entries hroot hasked hentries)
  | contains token =>
      obtain ⟨digest, hparse⟩ := hasked
      rw [Operation.action, Action.run_inspect, Prod.mk.injEq] at h
      have hcontains : store.contains tree token = .error failure := error_of_map h.1
      rw [contains_of_parse hparse] at hcontains
      exact Or.inr ⟨_, .containsLong hparse (hasContent_eq_error_iff.1 hcontains).1⟩
  | read token =>
      obtain ⟨digest, hparse⟩ := hasked
      rw [Operation.action, Action.run_inspect, Prod.mk.injEq] at h
      have hread : store.read tree token = .error failure := error_of_map h.1
      by_cases hroot : store.root.HoldsNul
      · exact Or.inr ⟨_, .readNul hparse hroot⟩
      · exact Or.inl (reported_of_read hparse hroot hread)
  | reopen =>
      rw [Operation.action, Action.run_pure] at h
      cases h

/-- What fails has no answer. -/
theorem not_returned (h : ((operation.action store).run tree).1.isOk = false) :
    ¬ ∃ answer after, (operation.action store).run tree = (.ok answer, after) := by
  rintro ⟨answer, after, hrun⟩
  rw [hrun] at h
  cases h

/-- **What a store is refused is reported, but for two reasons.** An operation that is asked well
returns or fails with a report, on any file tree and below any root, exactly if it is none of
those that are listed; and one of those fails with the refusal itself. -/
theorem reported_iff (hasked : store.WellAsked tree operation) :
    ((∃ answer after, (operation.action store).run tree = (.ok answer, after)) ∨
      (∃ failure after, (operation.action store).run tree = (.error failure, after) ∧
        Reported failure) ↔ ∀ fault, ¬ store.Unreported tree operation fault) ∧
    ∀ fault, store.Unreported tree operation fault →
      (operation.action store).run tree = (.error (.fileTree fault), tree) := by
  refine ⟨⟨?_, fun hnone => ?_⟩, fun fault => run_of_unreported⟩
  · rintro (⟨answer, after, hrun⟩ | ⟨failure, after, hrun, report, rfl, _⟩) fault hescapes
    · rw [run_of_unreported hescapes] at hrun
      cases hrun
    · rw [run_of_unreported hescapes] at hrun
      cases hrun
  · rcases hrun : (operation.action store).run tree with ⟨result, after⟩
    cases result with
    | ok answer => exact Or.inl ⟨answer, after, rfl⟩
    | error failure =>
        rcases reported_or_unreported hasked hrun with hreported | ⟨fault, hescapes⟩
        · exact Or.inr ⟨failure, after, rfl, hreported⟩
        · exact absurd hescapes (hnone fault)

/-- A put below a file is refused with a report, and so is the reading of content that is something
else. Entries are returned for a bucket in which there is more than records. -/
theorem reported_iff_spoiled :
    ((relative (spoiledPlace "store").tail).WellAsked (spoiledTree "store")
        (.put ⟨"k", "u", [98], some "md5-kutf/uauL+w61xx3dTFXjw=="⟩) ∧
      ∃ failure after, ((Operation.put ⟨"k", "u", [98],
          some "md5-kutf/uauL+w61xx3dTFXjw=="⟩).action
            (relative (spoiledPlace "store").tail)).run (spoiledTree "store") =
          (.error failure, after) ∧ Reported failure) ∧
    ((relative ["store"]).WellAsked (spoiledTree "store") (.read "md5-kutf/uauL+w61xx3dTFXjw==") ∧
      ∃ failure after, ((Operation.read "md5-kutf/uauL+w61xx3dTFXjw==").action
          (relative ["store"])).run (spoiledTree "store") = (.error failure, after) ∧
        Reported failure) ∧
    (relative ["store"]).WellAsked letteredTree (.entries "k") ∧
      ((Operation.entries "k").action (relative ["store"])).run letteredTree =
        (.ok (.entries [.stored "k" "u" (defaultDigest [97]).token 1]), letteredTree) ∧
      ∀ fault, ¬ (relative ["store"]).Unreported letteredTree (.entries "k") fault := by
  have hparse : Digest.parse "md5-kutf/uauL+w61xx3dTFXjw==" =
      .ok ⟨"md5", Hash.Algorithm.md5.digest [98]⟩ := by decide +kernel
  have hput : (relative (spoiledPlace "store").tail).WellAsked (spoiledTree "store")
      (.put ⟨"k", "u", [98], some "md5-kutf/uauL+w61xx3dTFXjw=="⟩) := by
    rintro t ⟨⟩
    exact ⟨_, hparse⟩
  have hread : (relative ["store"]).WellAsked (spoiledTree "store")
      (.read "md5-kutf/uauL+w61xx3dTFXjw==") := ⟨_, hparse⟩
  have hentries : (relative ["store"]).WellAsked letteredTree (.entries "k") := by
    intro bytes hbytes
    rcases entries_cases entries_letteredTree with ⟨_, text, hfile, htext, hfound⟩ | ⟨hnil, _⟩
    · rw [hbytes] at hfile
      cases hfile
      exact legible_of_entriesOf htext hfound
    · cases hnil
  refine ⟨⟨hput, ?_⟩, ⟨hread, ?_⟩, hentries, ?_⟩
  · have hfails : (((Operation.put ⟨"k", "u", [98], some "md5-kutf/uauL+w61xx3dTFXjw=="⟩).action
        (relative (spoiledPlace "store").tail)).run (spoiledTree "store")).1.isOk = false := by
      decide +kernel
    refine ((reported_iff hput).1.2 fun fault hescapes => ?_).resolve_left (not_returned hfails)
    cases hescapes with
    | putLong hverify hlook =>
        obtain rfl := Except.ok.inj (hparse.symm.trans (verify_eq_ok_iff.1 hverify).2)
        exact absurd hlook (by decide +kernel)
    | putNul _ hroot => exact absurd hroot (by unfold Path.HoldsNul; decide)
  · have hfails : (((Operation.read "md5-kutf/uauL+w61xx3dTFXjw==").action
        (relative ["store"])).run (spoiledTree "store")).1.isOk = false := by decide +kernel
    refine ((reported_iff hread).1.2 fun fault hescapes => ?_).resolve_left (not_returned hfails)
    cases hescapes with
    | readNul _ hroot => exact absurd hroot (by unfold Path.HoldsNul; decide)
  · have hrun : ((Operation.entries "k").action (relative ["store"])).run letteredTree =
        (.ok (.entries [.stored "k" "u" (defaultDigest [97]).token 1]), letteredTree) := by
      rw [Operation.action, Action.run_inspect, entries_letteredTree]
      rfl
    exact ⟨hrun, (reported_iff hentries).1.1 (Or.inl ⟨_, _, hrun⟩)⟩

/-! ## A long name -/

/-- A name of one letter, again and again. -/
def letters (count : Nat) : String := String.ofList (List.replicate count 'x')

theorem octets_letters (count : Nat) : FileTree.octets (letters count) = count := by
  rw [letters, FileTree.octets_ofList, List.length_replicate]
  intro c hc
  rw [List.eq_of_mem_replicate hc]
  decide

theorem modest_letters (count : Nat) : FileTree.Modest [letters count] (count + 1) where
  noNul := by
    rw [List.any_cons, List.any_nil, Bool.or_false, letters, String.toList_ofList,
      List.any_eq_false]
    intro c hc
    rw [List.eq_of_mem_replicate hc]
    decide
  short := by simp [octets_letters]

/-- A name of 300 letters is too long. -/
def longName : String := letters 300

/-- Content below a name that is too long is refused for it. -/
theorem lookUp_longName (hd : digest.Supported) :
    FileTree.empty.lookUp ((relative [longName]).contentPath digest) = .error .nameTooLong := by
  have hpath := ((modest_letters 300).append (modest_contentNames hd)).admissible (by decide)
    (by simp)
  have hlong : FileTree.nameLimit < FileTree.octets longName := by
    rw [longName, octets_letters]
    decide
  have hup : longName ≠ ".." := by
    intro heq
    rw [heq] at hlong
    exact absurd hlong (by decide)
  have hdirectory : FileTree.empty.get? [""] = some .directory := rfl
  have hwalk : FileTree.empty.walk [""] ([longName] ++ contentNames digest) =
      .error .nameTooLong := by
    simp only [List.singleton_append, FileTree.walk, hdirectory, hup, hlong, if_false, if_true]
  have hlocate : FileTree.empty.locate ((relative [longName]).contentPath digest) =
      .error .nameTooLong := by
    rw [contentPath_eq _ hd]
    exact (hpath.locate _).trans hwalk
  simp only [FileTree.lookUp, hlocate, bind, Except.bind]

/-- **A root with a name that is too long fails a put with the refusal itself**, which is no report
of the store. -/
theorem unreported_long_name :
    ∃ fault : FileTree.Fault, fault.refusal = .nameTooLong ∧
      ((relative [longName]).put "k" "u" [98] none).run FileTree.empty =
        (.error (.fileTree fault), FileTree.empty) ∧
      ¬ Reported (.fileTree fault) := by
  refine ⟨_, rfl, run_put_long (verify_default "k" "u" [98])
    (lookUp_longName (of_defaultDigest [98]).supported), ?_⟩
  rintro ⟨report, hreport, _⟩
  cases hreport

end LockPrefetch.Store
