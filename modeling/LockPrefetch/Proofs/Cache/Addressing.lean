import LockPrefetch.Proofs.Cache.Isolation
import LockPrefetch.Proofs.Cache.NewRoot

/-! # One blob for a digest

The tokens that denote one digest, its name written alike, name one blob: once it is stored by one
of them, all of them find it and read the same octets, and storing it by another one adds nothing
but a record (`one_blob`). The name of the function is part of where a blob lies, so that a token
with the name in other letters names another blob (`other_letters`). -/

set_option autoImplicit false

namespace LockPrefetch.Store

open Cache (contentNames bucketNames Leaf)

variable {store : Store} {tree after : FileTree} {base place : Location}
  {digest other : Digest} {key url token sri : String} {data bytes found : Bytes}
  {declared : Option String} {result : Except Failure String}

/-! ## Content that is held -/

/-- Content that is held is seen. -/
theorem hasContent_of_held (h : store.Held tree digest) :
    store.hasContent tree digest = .ok true := by
  obtain ⟨bytes, hread⟩ := h
  exact hasContent_of_found (FileTree.lookUp_of_readFile hread)

/-- **Whatever token denotes it, content that is held is found**, and the same octets are read. -/
theorem Placed.found_of_held (h : store.Placed base tree) (hd : digest.Supported)
    (hheld : store.Held tree digest) :
    ∃ bytes, digest.Of bytes ∧ ∀ token, Digest.parse token = .ok digest →
      store.contains tree token = .ok true ∧ store.read tree token = .ok bytes := by
  obtain ⟨bytes, hread⟩ := hheld
  obtain ⟨_, hfile⟩ := (FileTree.readFile_eq_ok_iff (leads_contentPath h.leads hd)).1 hread
  have hof := h.of_content hfile
  refine ⟨bytes, hof, fun token hparse => ⟨?_, read_of_parse hparse hof hread⟩⟩
  rw [contains_of_parse hparse]
  exact hasContent_of_held ⟨bytes, hread⟩

/-! ## Files that a put leaves alone -/

/-- Adding a record changes no file but the bucket of the key. -/
theorem file_iff_of_appendRecord {size : Nat} {added : Except Failure Unit}
    (hleads : tree.Leads store.root base)
    (hrun : (store.appendRecord key url digest size).run tree = (added, after))
    (hplace : place ≠ base ++ bucketNames key) :
    after.get? place = some (.file found) ↔ tree.get? place = some (.file found) := by
  rcases run_appendRecord hleads key url digest size with
    ⟨failure, last, hadd, hpaved⟩ | ⟨last, hadd, hfiled, _⟩
  · rw [hadd] at hrun
    cases hrun
    exact ⟨hpaved.get?_of_file, hpaved.get?_eq_some⟩
  · rw [hadd] at hrun
    cases hrun
    exact ⟨hfiled.get?_of_file hplace, hfiled.get?_eq_some hplace⟩

/-- **Storing content that is held adds a record and nothing else**, whether the put returns or
fails. -/
theorem file_iff_of_held (hleads : tree.Leads store.root base)
    (hheld : ∀ d, verify key url data declared = .ok d → store.Held tree d)
    (hrun : (store.put key url data declared).run tree = (result, after))
    (hplace : place ≠ base ++ bucketNames key) :
    after.get? place = some (.file found) ↔ tree.get? place = some (.file found) := by
  rw [run_put] at hrun
  cases hverify : verify key url data declared with
  | error failure =>
      rw [hverify] at hrun
      cases hrun
      exact Iff.rfl
  | ok d =>
      simp only [hverify, hasContent_of_held (hheld d hverify), layDown, if_true,
        FileTree.Action.run_pure] at hrun
      rcases hadd : (store.appendRecord key url d data.length).run tree with ⟨added, last⟩
      have hfiles : last.get? place = some (.file found) ↔ tree.get? place = some (.file found) :=
        file_iff_of_appendRecord hleads hadd hplace
      rw [hadd] at hrun
      cases added with
      | error failure =>
          cases hrun
          exact hfiles
      | ok _ =>
          cases hrun
          exact hfiles

/-- A put leaves the place of every other digest as it was. -/
theorem get?_other_content (hleads : tree.Leads store.root base)
    (hrun : (store.put key url data declared).run tree = (.ok sri, after))
    (hother : ∀ d, verify key url data declared = .ok d → other ≠ d) :
    after.get? (base ++ contentNames other) = tree.get? (base ++ contentNames other) := by
  obtain ⟨d, _, hof, hdeclares, hkept⟩ := put_ok hleads hrun
  have hverify : verify key url data declared = .ok d := verify_eq_ok_iff.2 ⟨hof, hdeclares⟩
  have hcontent : base ++ contentNames other ≠ base ++ contentNames d := fun heq =>
    hother d hverify (Cache.contentNames_inj.1 (List.append_cancel_left heq))
  have hbucket : base ++ contentNames other ≠ base ++ bucketNames key := fun heq =>
    Cache.contentNames_ne_bucketNames other key (List.append_cancel_left heq)
  -- it is no directory on the way to what the put has written
  rcases hkept.elsewhere _ hcontent hbucket with hsame | ⟨_, _, hway | hway⟩
  · exact hsame
  · exact absurd hway ((Leaf.content other).not_on_way (.content d) base)
  · exact absurd hway ((Leaf.content other).not_on_way (.bucket key) base)

/-! ## The main statement -/

/-- **One blob for a digest.** Once content was stored by a token, on a store below an empty root
that was asked for anything before, every token that denotes the same digest finds it and reads the
same octets, and storing anything by such a token changes no file but the bucket of its key. The
place of every other digest, be it that of the same octets under the name in other letters, is left
as it was. -/
theorem one_blob (h : store.Vacant base tree) (operations : List Operation)
    (hparse : Digest.parse token = .ok digest)
    (hput : (store.put key url data (some token)).run (store.afterAll operations tree) =
      (.ok sri, after)) :
    (∃ bytes, digest.Of bytes ∧ ∀ t, Digest.parse t = .ok digest →
      store.contains after t = .ok true ∧ store.read after t = .ok bytes) ∧
    (∀ (t key' url' : String) (data' : Bytes) (result : Except Failure String) (last : FileTree),
      Digest.parse t = .ok digest →
      (store.put key' url' data' (some t)).run after = (result, last) →
        ∀ place found, place ≠ base ++ bucketNames key' →
          (last.get? place = some (.file found) ↔ after.get? place = some (.file found))) ∧
    ∀ other : Digest, other ≠ digest →
      after.get? (base ++ contentNames other) =
        (store.afterAll operations tree).get? (base ++ contentNames other) := by
  have hbefore := h.placed.afterAll operations
  obtain ⟨result, last, hrun, hafter, hheld⟩ :=
    hbefore.placed.run_put key url data (some token)
  rw [hput] at hrun
  cases hrun
  obtain ⟨d, hverify, _, hheld⟩ := hheld sri rfl
  have hdenotes : ∀ {key url t data d}, Digest.parse t = .ok digest →
      verify key url data (some t) = .ok d → d = digest := by
    intro key url t data d ht hd
    have hdeclares : Digest.parse t = .ok d := (verify_eq_ok_iff.1 hd).2
    rw [ht] at hdeclares
    exact (Except.ok.inj hdeclares).symm
  obtain rfl := hdenotes hparse hverify
  refine ⟨hafter.placed.found_of_held (verify_eq_ok_iff.1 hverify).1.supported hheld, ?_, ?_⟩
  · intro t key' url' data' result last ht hagain place found hplace
    refine file_iff_of_held hafter.placed.leads (fun e he => ?_) hagain hplace
    rwa [hdenotes ht he]
  · intro other hother
    refine get?_other_content hbefore.placed.leads hput fun e he => ?_
    rwa [hdenotes hparse he]

theorem vacant_empty (name : String) (hname : name ≠ "..") :
    (relative [name]).Vacant ["", name] FileTree.empty := by
  have hstraight : ".." ∉ [name] := fun hmem => hname (List.mem_singleton.1 hmem).symm
  exact Fresh.vacant_root ⟨wellFormed_empty, FileTree.leads_of_straight _ hstraight, rfl⟩

/-- Behind a put of `a`, `b` is stored by an odd token and found by its canonical one. -/
theorem one_blob_odd_token :
    (relative ["store"]).Vacant ["", "store"] FileTree.empty ∧
      Digest.parse "MD5-kutf/uauL+w61xx3dTFXjx==?x" = .ok letterDigest ∧
      ∃ after bytes,
        ((relative ["store"]).put "k" "u" [98] (some "MD5-kutf/uauL+w61xx3dTFXjx==?x")).run
          ((relative ["store"]).afterAll [.put ⟨"k", "u", [97], none⟩] FileTree.empty) =
            (.ok letterDigest.token, after) ∧
        letterDigest.Of bytes ∧
        (relative ["store"]).contains after letterDigest.token = .ok true ∧
        (relative ["store"]).read after letterDigest.token = .ok bytes := by
  have hmodest : FileTree.Modest ["store"] 6 := ⟨by decide, by decide⟩
  obtain ⟨_, _, _, hmade⟩ := (new_relative (by decide) hmodest (by decide)).made
  have hverify : verify "k" "u" [98] (some "MD5-kutf/uauL+w61xx3dTFXjx==?x") = .ok letterDigest :=
    verify_eq_ok_iff.2 ⟨of_letterDigest, parse_letterDigest⟩
  obtain ⟨after, hput⟩ := (hmade.afterAll [.put ⟨"k", "u", [97], none⟩]).run_put_met hverify
    (fits_of_short (by decide) (by decide) of_letterDigest.supported "k")
  have hvacant := vacant_empty "store" (by decide)
  obtain ⟨⟨bytes, hof, hfound⟩, _, _⟩ := one_blob hvacant _ parse_letterDigest hput
  obtain ⟨hcontains, hread⟩ := hfound _ (Digest.parse_token of_letterDigest.supported)
  exact ⟨hvacant, parse_letterDigest, after, bytes, hput, hof, hcontains, hread⟩

/-- **In other letters the name of the function names another blob**: `b` is stored under `MD5`,
and not found under `md5`. -/
theorem other_letters :
    (relative ["store"]).Vacant ["", "store"] FileTree.empty ∧
      Digest.parse "MD5-kutf/uauL+w61xx3dTFXjw==" =
        .ok ⟨"MD5", Hash.Algorithm.md5.digest [98]⟩ ∧
      Digest.parse "md5-kutf/uauL+w61xx3dTFXjw==" =
        .ok ⟨"md5", Hash.Algorithm.md5.digest [98]⟩ ∧
      (((relative ["store"]).put "k" "u" [98] (some "MD5-kutf/uauL+w61xx3dTFXjw==")).run
        FileTree.empty).1.isOk = true ∧
      (relative ["store"]).contains
        (((relative ["store"]).put "k" "u" [98] (some "MD5-kutf/uauL+w61xx3dTFXjw==")).run
          FileTree.empty).2 "md5-kutf/uauL+w61xx3dTFXjw==" = .ok false := by
  exact ⟨vacant_empty "store" (by decide), by decide +kernel⟩

end LockPrefetch.Store
