import LockPrefetch.Proofs.Cache.NewRoot

/-! # Entries behind a put

A put that is met adds one entry to its key and leaves the entries of every other key as they
were, also where the two keys share a bucket. The bucket may hold any text before: what counts
is that it could be read. The argument has two parts: what the put leaves on the file tree
(`Kept`), and what is read from it for the keys of the same bucket and of other ones. -/

set_option autoImplicit false

namespace LockPrefetch.Store

open FileTree (Admissible)
open Cache (contentNames bucketNames Entry)

variable {store : Store} {tree mid after : FileTree} {base : Location} {digest : Digest}
  {key other url sri : String} {data bytes : Bytes} {declared : Option String}
  {old found : List Entry}

/-! ## What a put leaves -/

/-- **What a put that is met leaves**: the bucket of its key with one more line, perhaps the
content, and directories on the way to them; nothing else has changed. -/
structure Kept (store : Store) (base : Location) (tree after : FileTree) (key url : String)
    (data : Bytes) (digest : Digest) : Prop where
  grows : tree.Grows after
  located : after.locate (store.bucketPath key) = .ok (base ++ bucketNames key)
  bucket : after.get? (base ++ bucketNames key) =
    some (.file (tree.content (base ++ bucketNames key) ++ lineOctets key url digest data.length))
  elsewhere : ∀ place, place ≠ base ++ contentNames digest → place ≠ base ++ bucketNames key →
    after.get? place = tree.get? place ∨
      (tree.get? place = none ∧ after.get? place = some .directory ∧
        (place <+: (base ++ contentNames digest).dropLast ∨
          place <+: (base ++ bucketNames key).dropLast))

/-- What laying content down leaves elsewhere. -/
theorem layDown_elsewhere (h : tree.Leads store.root base) (hd : digest.Supported) {present : Bool}
    (hrun : (store.layDown digest data present).run tree = (.ok (), mid)) :
    tree.Grows mid ∧ ∀ place, place ≠ base ++ contentNames digest →
      mid.get? place = tree.get? place ∨
        (tree.get? place = none ∧ mid.get? place = some .directory ∧
          place <+: (base ++ contentNames digest).dropLast) := by
  cases present with
  | true =>
      cases hrun
      exact ⟨FileTree.Grows.refl tree, fun _ _ => Or.inl rfl⟩
  | false =>
      rw [layDown, if_neg (by simp)] at hrun
      rcases run_placeContent h hd data with ⟨_, _, hrun', _⟩ | ⟨last, hrun', hfiled, _⟩
      · rw [hrun'] at hrun
        cases hrun
      · rw [hrun'] at hrun
        cases hrun
        exact ⟨hfiled.grows, hfiled.elsewhere⟩

/-- A record that is added behind that leaves what a put leaves. -/
theorem kept_of_record (hgrows : tree.Grows mid)
    (helse : ∀ place, place ≠ base ++ contentNames digest →
      mid.get? place = tree.get? place ∨
        (tree.get? place = none ∧ mid.get? place = some .directory ∧
          place <+: (base ++ contentNames digest).dropLast))
    (hfiled : mid.Filed after (base ++ bucketNames key)
      (mid.content (base ++ bucketNames key) ++ lineOctets key url digest data.length))
    (hlocated : after.locate (store.bucketPath key) = .ok (base ++ bucketNames key)) :
    store.Kept base tree after key url data digest := by
  -- laying the content down has not touched the bucket
  have hsame : mid.content (base ++ bucketNames key) = tree.content (base ++ bucketNames key) := by
    rcases helse _ (Cache.bucket_ne_content base digest key) with hsame | ⟨_, _, hway⟩
    · rw [FileTree.content, FileTree.content, hsame]
    · exact absurd hway (Cache.bucket_not_on_way base digest key)
  refine ⟨hgrows.trans hfiled.grows, hlocated, by rw [hfiled.here, hsame], ?_⟩
  intro place hcontent hbucket
  rcases hfiled.elsewhere place hbucket with hlast | ⟨hnone, hdir, hway⟩
  · rw [hlast]
    rcases helse place hcontent with hmid | ⟨hnone, hdir, hway⟩
    · exact Or.inl hmid
    · exact Or.inr ⟨hnone, hdir, Or.inl hway⟩
  · rcases helse place hcontent with hmid | ⟨_, hdir', _⟩
    · exact Or.inr ⟨by rw [← hmid, hnone], hdir, Or.inr hway⟩
    · rw [hnone] at hdir'
      cases hdir'

/-- **A put that is met** has verified its content and keeps everything else. -/
theorem put_ok (h : tree.Leads store.root base)
    (hput : (store.put key url data declared).run tree = (.ok sri, after)) :
    ∃ digest, sri = digest.token ∧ digest.Of data ∧ Declares declared digest ∧
      store.Kept base tree after key url data digest := by
  rw [run_put] at hput
  cases hverify : verify key url data declared with
  | error failure => simp [hverify] at hput
  | ok digest =>
      obtain ⟨hof, hdeclares⟩ := verify_eq_ok_iff.1 hverify
      rw [hverify] at hput
      cases hpresent : store.hasContent tree digest with
      | error failure => simp [hpresent] at hput
      | ok present =>
          simp only [hpresent] at hput
          rcases hlay : (store.layDown digest data present).run tree with ⟨result, mid⟩
          rw [hlay] at hput
          cases result with
          | error failure => simp at hput
          | ok _ =>
              obtain ⟨hgrows, helse⟩ := layDown_elsewhere h hof.supported hlay
              simp only at hput
              rcases run_appendRecord (h.mono hgrows) key url digest data.length with
                ⟨failure, last, hrun, _⟩ | ⟨last, hrun, hfiled, hlocated⟩
              · rw [hrun] at hput
                cases hput
              · rw [hrun] at hput
                cases hput
                exact ⟨digest, rfl, hof, hdeclares, kept_of_record hgrows helse hfiled hlocated⟩

/-! ## Keys of the same bucket -/

theorem Kept.readFile (hkept : store.Kept base tree after key url data digest)
    (h : tree.Leads store.root base) (hshare : bucketNames other = bucketNames key) :
    after.readFile (store.bucketPath other) = .ok (tree.content (base ++ bucketNames other) ++
      lineOctets key url digest data.length) := by
  rw [FileTree.readFile_eq_ok_iff ((leads_bucketPath h other).mono hkept.grows), hshare]
  refine ⟨?_, hkept.bucket⟩
  rw [bucketPath_eq, hshare, ← bucketPath_eq]
  exact hkept.located

/-- **In the bucket of the put**, its entry comes behind the old ones of its key, and other
keys have their old ones. -/
theorem Kept.entries_of_same_bucket (hkept : store.Kept base tree after key url data digest)
    (hwell : tree.WellFormed) (h : tree.Leads store.root base) (hsize : data.Measurable)
    (hshare : bucketNames other = bucketNames key) (hold : store.entries tree other = .ok old) :
    store.entries after other =
      .ok (old ++ if key = other then [.stored key url digest.token data.length] else []) := by
  rcases entries_cases hold with ⟨bytes, text, hread, htext, hfound⟩ | ⟨rfl, hmissing⟩
  · -- the text that was there is read with the new line behind it
    obtain ⟨_, hfile⟩ := (FileTree.readFile_eq_ok_iff (leads_bucketPath h other)).1 hread
    have hafter := hkept.readFile h hshare
    rw [FileTree.content_of_get? hfile] at hafter
    rw [entries_of_bucket hafter (Encoding.Utf8.decode_append htext _)]
    exact Cache.Bucket.entriesOf_append_line hsize.sized hfound
  · -- there was no bucket, so that the new line is all there is
    have hnone := hwell.vacant_of_missing (leads_bucketPath h other) hmissing
    have hafter := hkept.readFile h hshare
    rw [FileTree.content, hnone, List.nil_append] at hafter
    have hempty : Cache.Bucket.entriesOf other [] = .ok [] := rfl
    rw [entries_of_bucket hafter (Encoding.Utf8.decode_encode _)]
    exact Cache.Bucket.entriesOf_append_line hsize.sized hempty

/-! ## Keys of other buckets -/

theorem bucket_ne_bucket (hshare : bucketNames other ≠ bucketNames key) :
    base ++ bucketNames other ≠ base ++ bucketNames key :=
  fun heq => hshare (List.append_cancel_left heq)

/-- What could be read of another bucket is read again. -/
theorem Kept.readFile_other (hkept : store.Kept base tree after key url data digest)
    (h : tree.Leads store.root base) (hshare : bucketNames other ≠ bucketNames key)
    (hread : tree.readFile (store.bucketPath other) = .ok bytes) :
    after.readFile (store.bucketPath other) = .ok bytes := by
  have hleads := leads_bucketPath h other
  obtain ⟨hlocate, hfile⟩ := (FileTree.readFile_eq_ok_iff hleads).1 hread
  refine (FileTree.readFile_eq_ok_iff (hleads.mono hkept.grows)).2
    ⟨hkept.grows.locate hlocate, ?_⟩
  rcases hkept.elsewhere _ (Cache.bucket_ne_content base digest other) (bucket_ne_bucket hshare)
    with hsame | ⟨hnone, _, _⟩
  · rw [hsame, hfile]
  · rw [hnone] at hfile
    cases hfile

/-- Where no other bucket stood, none stands. -/
theorem Kept.vacant_other (hkept : store.Kept base tree after key url data digest)
    (hshare : bucketNames other ≠ bucketNames key)
    (hnone : tree.get? (base ++ bucketNames other) = none) :
    after.get? (base ++ bucketNames other) = none := by
  rcases hkept.elsewhere _ (Cache.bucket_ne_content base digest other) (bucket_ne_bucket hshare)
    with hsame | ⟨_, _, hway | hway⟩
  · rw [hsame, hnone]
  · exact absurd hway (Cache.bucket_not_on_way base digest other)
  · have hlength := hway.length_le
    simp only [List.length_dropLast, List.length_append, Cache.length_bucketNames] at hlength
    omega

/-- A file on the way to another bucket has been there before. -/
theorem Kept.file_on_the_way (hkept : store.Kept base tree after key url data digest)
    (hshare : bucketNames other ≠ bucketNames key) {before : List String}
    (hbefore : before <+: bucketNames other)
    (hfile : after.get? (base ++ before) = some (.file bytes)) :
    tree.get? (base ++ before) = some (.file bytes) := by
  have hlength := hbefore.length_le
  rw [Cache.length_bucketNames] at hlength
  have hcontent : base ++ before ≠ base ++ contentNames digest := by
    intro heq
    rw [List.append_cancel_left heq, Cache.length_contentNames] at hlength
    omega
  have hbucket : base ++ before ≠ base ++ bucketNames key := by
    intro heq
    rw [List.append_cancel_left heq] at hbefore
    exact hshare (hbefore.eq_of_length (by simp)).symm
  rcases hkept.elsewhere _ hcontent hbucket with hsame | ⟨_, hdir, _⟩
  · rw [← hsame, hfile]
  · rw [hdir] at hfile
    cases hfile

/-- A bucket that was missing is missing still. -/
theorem Kept.lookUp_missing (hkept : store.Kept base tree after key url data digest)
    (hwell : tree.WellFormed) (h : tree.Leads store.root base)
    (hshare : bucketNames other ≠ bucketNames key)
    (hmissing : tree.lookUp (store.bucketPath other) = .error .noEntry) :
    after.lookUp (store.bucketPath other) = .error .noEntry := by
  have hnone := hwell.vacant_of_missing (leads_bucketPath h other) hmissing
  have hpath : Admissible (store.bucketPath other) :=
    Cache.admissible_bucket other (FileTree.admissible_of_locate_ok hkept.located)
  have hlocated := hkept.located
  rw [bucketPath_eq] at hpath hmissing hlocated ⊢
  refine (FileTree.rooted_of_locate (h.mono hkept.grows) (Cache.bucketNames_ne_nil key)
    hlocated).lookUp_missing (Cache.straight_bucketNames other) (Cache.short_bucketNames other)
    hpath (hkept.vacant_other hshare hnone) ?_
  intro before hbefore content hfile
  exact hwell.no_file_on_the_way h (Cache.straight_bucketNames other) hmissing hbefore
    (hkept.file_on_the_way hshare hbefore hfile)

/-- **In every other bucket** nothing has changed. -/
theorem Kept.entries_of_other_bucket (hkept : store.Kept base tree after key url data digest)
    (hwell : tree.WellFormed) (h : tree.Leads store.root base)
    (hshare : bucketNames other ≠ bucketNames key) (hold : store.entries tree other = .ok old) :
    store.entries after other = .ok old := by
  rcases entries_cases hold with ⟨bytes, text, hread, htext, hfound⟩ | ⟨rfl, hmissing⟩
  · rw [entries_of_bucket (hkept.readFile_other h hshare hread) htext, hfound]
  · exact entries_of_missing (hkept.lookUp_missing hwell h hshare hmissing)

/-! ## A stocked store -/

/-- The root of the old store is one that a store may have made. -/
theorem made_oldTree {name : String} (hname : name ≠ "..") (hmodest : FileTree.Modest [name] 100)
    (key : String) (bytes : Bytes) :
    (relative [name]).Made (oldTree name key bytes) [] [name] [""] := by
  have hstraight : ".." ∉ [name] := fun hmem => hname (List.mem_singleton.1 hmem).symm
  refine ⟨⟨rfl, hstraight, fun other hother => ?_, hmodest.admissible (by decide) (by simp),
    ⟨rfl, rfl⟩, ?_⟩, FileTree.leads_of_straight _ hstraight, ?_, ?_⟩
  · exact Nat.le_trans (hmodest.octets_le other hother) (by decide)
  · intro before hbefore found hfile
    have hlength := congrArg List.length (eq_of_file_oldTree hfile)
    have hle := hbefore.length_le
    simp only [List.length_append, List.length_cons, List.length_nil,
      Cache.length_bucketNames] at hlength hle
    omega
  · intro names hleaf hdir
    rcases get?_oldTree hdir with ⟨_, hplace⟩ | ⟨hnode, _⟩
    · -- the directories of the old store are above its bucket
      have hlong : 4 ≤ names.length := by
        cases hleaf with
        | content digest => rw [Cache.length_contentNames]; omega
        | bucket other => rw [Cache.length_bucketNames]
      rcases hplace with heq | heq | ⟨n, hn, heq⟩
      all_goals
        have hlength := congrArg List.length heq
        simp only [List.length_append, List.length_cons, List.length_nil, List.length_take,
          Cache.length_bucketNames] at hlength
        omega
    · cases hnode
  · intro names found hfile
    exact Or.inr ⟨key, List.append_cancel_left (eq_of_file_oldTree hfile)⟩

/-- Paths below `store` are not too long. -/
theorem fits_store (hd : digest.Supported) (key : String) : (relative ["store"]).Fits digest key :=
  fits_of_short (by decide) (by decide) hd key

theorem made_letteredTree : (relative ["store"]).Made letteredTree [] ["store"] [""] :=
  made_oldTree (by decide) ⟨by decide, by decide⟩ "k" _

/-- That store behind a put of `a` under `l`. -/
def stockedTree : FileTree :=
  (((relative ["store"]).put "l" "w" [97] (some "md5-DMF1ucDxtqgxw5niaXcmYQ==")).run
    letteredTree).2

/-- The put is met. -/
theorem run_put_letteredTree :
    ((relative ["store"]).put "l" "w" [97] (some "md5-DMF1ucDxtqgxw5niaXcmYQ==")).run
        letteredTree = (.ok "md5-DMF1ucDxtqgxw5niaXcmYQ==", stockedTree) ∧
      (relative ["store"]).Made stockedTree [] ["store"] [""] := by
  have hof : (⟨"md5", Hash.Algorithm.md5.digest [97]⟩ : Digest).Of [97] := ⟨.md5, rfl, rfl⟩
  have hparse : Digest.parse "md5-DMF1ucDxtqgxw5niaXcmYQ==" =
      .ok ⟨"md5", Hash.Algorithm.md5.digest [97]⟩ := by decide +kernel
  have htoken : (⟨"md5", Hash.Algorithm.md5.digest [97]⟩ : Digest).token =
      "md5-DMF1ucDxtqgxw5niaXcmYQ==" := by decide +kernel
  have hverify : verify "l" "w" [97] (some "md5-DMF1ucDxtqgxw5niaXcmYQ==") =
      .ok ⟨"md5", Hash.Algorithm.md5.digest [97]⟩ := verify_eq_ok_iff.2 ⟨hof, hparse⟩
  obtain ⟨after, hput, hmade⟩ :=
    made_letteredTree.run_put_made hverify (fits_store hof.supported "l")
  rw [stockedTree, hput, htoken]
  exact ⟨rfl, hmade⟩

/-- Both keys have an entry now. -/
theorem entries_stockedTree :
    (relative ["store"]).entries stockedTree "k" =
        .ok [.stored "k" "u" (defaultDigest [97]).token 1] ∧
      (relative ["store"]).entries stockedTree "l" =
        .ok [.stored "l" "w" "md5-DMF1ucDxtqgxw5niaXcmYQ==" 1] := by
  have hsize : Bytes.Measurable [97] := Bytes.measurable_of_lt (by decide)
  have hnone : (relative ["store"]).entries letteredTree "l" = .ok [] :=
    entries_of_missing (by decide +kernel)
  have hshare : bucketNames "k" ≠ bucketNames "l" := by decide +kernel
  have hleads := made_letteredTree.placed.leads
  have hwell : letteredTree.WellFormed := wellFormed_oldTree _ _ _
  obtain ⟨_, htoken, _, _, hkept⟩ := put_ok hleads run_put_letteredTree.1
  refine ⟨hkept.entries_of_other_bucket hwell hleads hshare entries_letteredTree, ?_⟩
  rw [htoken]
  exact hkept.entries_of_same_bucket hwell hleads hsize rfl hnone

/-! ## All keys -/

theorem get_of_entries (h : store.entries tree key = .ok found) :
    store.get tree key = .ok (found.getLast?.filter fun entry => entry.integrity.isSome) := by
  rw [get, h]
  rfl

/-- **A put adds one entry to its key and changes no other key.** In every well-formed tree in
which each `..` of the root goes up from a directory: if the entries of the key can be read and
the put is met, they are the old ones followed by the entry of the put, which is the one that
counts; and the entries of every other key that can be read stay what they were. -/
theorem entries_put (hwell : tree.WellFormed) (hroot : ∃ base, tree.Leads store.root base)
    (hsize : data.Measurable) (hold : store.entries tree key = .ok old)
    (hput : (store.put key url data declared).run tree = (.ok sri, after)) :
    store.entries after key =
        .ok (old ++ [⟨key, some sri, .number 0, .number data.length, some url⟩]) ∧
      store.get after key =
        .ok (some ⟨key, some sri, .number 0, .number data.length, some url⟩) ∧
      ∀ other, other ≠ key → ∀ found, store.entries tree other = .ok found →
        store.entries after other = .ok found ∧
          store.get after other = store.get tree other := by
  obtain ⟨base, h⟩ := hroot
  obtain ⟨digest, rfl, _, _, hkept⟩ := put_ok h hput
  have hkey : store.entries after key =
      .ok (old ++ [.stored key url digest.token data.length]) := by
    rw [hkept.entries_of_same_bucket hwell h hsize rfl hold, if_pos rfl]
  refine ⟨hkey, ?_, ?_⟩
  · rw [get_of_entries hkey]
    simp [Entry.stored, Cache.Bucket.writtenTime]
  · intro other hother found hfound
    have hsame : store.entries after other = .ok found := by
      by_cases hshare : bucketNames other = bucketNames key
      · rw [hkept.entries_of_same_bucket hwell h hsize hshare hfound, if_neg (Ne.symm hother),
          List.append_nil]
      · exact hkept.entries_of_other_bucket hwell h hshare hfound
    exact ⟨hsame, by rw [get_of_entries hsame, get_of_entries hfound]⟩

/-- A put of `b` adds its entry behind the one of `k`, and leaves `l` the entry that it has. -/
theorem entries_put_stocked :
    stockedTree.WellFormed ∧ (∃ base, stockedTree.Leads (relative ["store"]).root base) ∧
      Bytes.Measurable [98] ∧
      (relative ["store"]).entries stockedTree "k" =
        .ok [.stored "k" "u" (defaultDigest [97]).token 1] ∧
      (relative ["store"]).entries stockedTree "l" =
        .ok [.stored "l" "w" "md5-DMF1ucDxtqgxw5niaXcmYQ==" 1] ∧
      ∃ after, ((relative ["store"]).put "k" "v" [98] none).run stockedTree =
          (.ok (defaultDigest [98]).token, after) ∧
        (relative ["store"]).entries after "k" =
          .ok [.stored "k" "u" (defaultDigest [97]).token 1,
            .stored "k" "v" (defaultDigest [98]).token 1] ∧
        (relative ["store"]).get after "k" =
          .ok (some (.stored "k" "v" (defaultDigest [98]).token 1)) ∧
        (relative ["store"]).entries after "l" =
          .ok [.stored "l" "w" "md5-DMF1ucDxtqgxw5niaXcmYQ==" 1] ∧
        (relative ["store"]).get after "l" = (relative ["store"]).get stockedTree "l" := by
  obtain ⟨hk, hl⟩ := entries_stockedTree
  have hwell : stockedTree.WellFormed := FileTree.wellFormed_of_listed (by decide +kernel)
  have hmade := run_put_letteredTree.2
  have hroot : ∃ base, stockedTree.Leads (relative ["store"]).root base := ⟨_, hmade.placed.leads⟩
  have hsize : Bytes.Measurable [98] := Bytes.measurable_of_lt (by decide)
  obtain ⟨after, hput⟩ := hmade.run_put_met (verify_default "k" "v" [98])
    (fits_store (of_defaultDigest [98]).supported "k")
  obtain ⟨hentries, hget, hothers⟩ := entries_put hwell hroot hsize hk hput
  exact ⟨hwell, hroot, hsize, hk, hl, after, hput, hentries, hget, hothers "l" (by decide) _ hl⟩

/-- **Through a root that comes into being late** the first put shows the records of an old
store: there were no entries before it, and there are two behind it. -/
theorem entries_put_late_root :
    (oldTree "store" "k" (lineOctets "k" "u" (defaultDigest [97]) 1)).WellFormed ∧
      (late "store").entries
        (oldTree "store" "k" (lineOctets "k" "u" (defaultDigest [97]) 1)) "k" = .ok [] ∧
      ∃ sri after, ((late "store").put "k" "v" [98] none).run
          (oldTree "store" "k" (lineOctets "k" "u" (defaultDigest [97]) 1)) = (.ok sri, after) ∧
        (late "store").entries after "k" ≠
          .ok [⟨"k", some sri, .number 0, .number 1, some "v"⟩] := by
  have hname : Ordinary "store" := ⟨by decide, by decide, ⟨by decide, by decide⟩⟩
  have hsize : Bytes.Measurable [97] := Bytes.measurable_of_lt (by decide)
  have hsize' : Bytes.Measurable [98] := Bytes.measurable_of_lt (by decide)
  obtain ⟨after, hput, _, hread⟩ := run_put_late hname "k" "v"
    (lineOctets "k" "u" (defaultDigest [97]) 1) [98]
  refine ⟨wellFormed_oldTree _ _ _, entries_late hname _ _, _, after, hput, ?_⟩
  rw [entries_of_late hsize hsize' hread]
  simp

end LockPrefetch.Store
