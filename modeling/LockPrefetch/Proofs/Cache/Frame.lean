import LockPrefetch.Proofs.Cache.LateRoot
import LockPrefetch.Proofs.FileTree.Confined

/-! # What a put leaves alone

Whatever a file tree holds, and however a put ends, the put adds at most two files and lets the
bucket of its key go on behind what it held (`Restrained`). It fails after each part of its work,
and what a failure leaves follows from the step that failed: nothing after the verification,
perhaps directories or the content later on, and a bucket only once all is done.

No other file changes (`Framed`), unless the content comes to a place where something else has been
and the look has found nothing (`Overwrites`). The two exclude each other and one of them holds
(`framed_put`). A settled root has the frame: where it leads, the look finds what is there. A root
that comes into being late may fail to have it (`replaced_late_root`). -/

set_option autoImplicit false

namespace LockPrefetch.Store

open FileTree (Action)
open Cache (contentNames bucketNames)

variable {store : Store} {tree mid after : FileTree} {names other : List String}
  {place place' : Location} {digest : Digest} {key url : String} {data bytes : Bytes}
  {declared : Option String} {present : Bool} {result : Except Failure String}

/-! ## Places of a store -/

/-- **A place of a store**: the names lead there from where the root leads. -/
def Below (store : Store) (tree : FileTree) (names : List String) (place : Location) : Prop :=
  ∃ base, tree.locate store.root = .ok base ∧ place = base ++ names

theorem Below.unique (h : store.Below tree names place) (h' : store.Below tree names place') :
    place = place' := by
  obtain ⟨base, hbase, rfl⟩ := h
  obtain ⟨base', hbase', rfl⟩ := h'
  rw [hbase] at hbase'
  cases hbase'
  rfl

theorem Below.mono (h : store.Below tree names place) (hgrows : tree.Grows after) :
    store.Below after names place := by
  obtain ⟨base, hbase, rfl⟩ := h
  exact ⟨base, hgrows.locate hbase, rfl⟩

/-- No content stands where a bucket does. -/
theorem Below.bucket_ne (h : store.Below tree (bucketNames key) place)
    (h' : store.Below tree (contentNames digest) place') : place ≠ place' := by
  obtain ⟨base, hbase, rfl⟩ := h
  obtain ⟨base', hbase', rfl⟩ := h'
  rw [hbase] at hbase'
  cases hbase'
  exact Cache.bucket_ne_content base digest key

/-! ## The two changes -/

/-- **Laying content down below any root** gives the content's own place that content, or is
refused and leaves directories. -/
theorem run_placeContent_anywhere (store : Store) (hd : digest.Supported) (data : Bytes)
    (tree : FileTree) :
    (∃ fault after, (store.placeContent digest data).run tree =
        (.error (refused "cache_put" (store.contentPath digest) fault), after) ∧
      tree.Widens after) ∨
    ∃ place after, (store.placeContent digest data).run tree = (.ok (), after) ∧
      store.Below after (contentNames digest) place ∧
      after.locate (store.contentPath digest) = .ok place ∧ tree.Wrote after place data := by
  rw [placeContent_eq, contentPath_eq store hd]
  rcases FileTree.run_changeBelow_anywhere (Cache.straight_contentNames hd)
      (Cache.contentNames_ne_nil digest) (fun _ => data) tree with
    ⟨fault, after, hrun, hwidens⟩ | ⟨base, after, hrun, hbase, hlocate, hwrote⟩
  · exact Or.inl ⟨fault, after, run_restating_error hrun, hwidens⟩
  · exact Or.inr ⟨_, after, run_restating_ok hrun, ⟨base, hbase, rfl⟩, hlocate, hwrote⟩

/-- **Adding a record below any root** adds its line to the bucket, or is refused and leaves
directories. -/
theorem run_appendRecord_anywhere (store : Store) (key url : String) (digest : Digest) (size : Nat)
    (tree : FileTree) :
    (∃ fault after, (store.appendRecord key url digest size).run tree =
        (.error (refused "cache_put" (store.bucketPath key) fault), after) ∧
      tree.Widens after) ∨
    ∃ place after, (store.appendRecord key url digest size).run tree = (.ok (), after) ∧
      store.Below after (bucketNames key) place ∧
      tree.Wrote after place (tree.content place ++ lineOctets key url digest size) := by
  rw [appendRecord_eq, bucketPath_eq]
  rcases FileTree.run_changeBelow_anywhere (Cache.straight_bucketNames key)
      (Cache.bucketNames_ne_nil key) (· ++ lineOctets key url digest size) tree with
    ⟨fault, after, hrun, hwidens⟩ | ⟨base, after, hrun, hbase, _, hwrote⟩
  · exact Or.inl ⟨fault, after, run_restating_error hrun, hwidens⟩
  · exact Or.inr ⟨_, after, run_restating_ok hrun, ⟨base, hbase, rfl⟩, hwrote⟩

/-! ## Up to the bucket -/

/-- **What laying content down leaves**, whether it was there, is laid down or is refused: files
are as they were, but that the content may be at its own place. What stood there already stays,
unless the root comes into being late. -/
structure Laid (store : Store) (digest : Digest) (data : Bytes) (tree mid : FileTree) : Prop where
  grows : tree.Grows mid
  elsewhere : ∀ place bytes, ¬ store.Below mid (contentNames digest) place →
    (mid.get? place = some (.file bytes) ↔ tree.get? place = some (.file bytes))
  stays : ∀ place bytes, tree.get? place = some (.file bytes) →
    mid.get? place = some (.file bytes) ∨
      ((∀ base, ¬ tree.Leads store.root base) ∧ store.Below mid (contentNames digest) place ∧
        mid.get? place = some (.file data))

theorem laid_of_widens (h : tree.Widens mid) : Laid store digest data tree mid :=
  ⟨h.grows, fun _ _ _ => h.file_iff, fun _ _ hfile => Or.inl (h.file_iff.2 hfile)⟩

/-- **The step that lays content down**, behind a look that was met. -/
theorem laid_layDown (hwf : tree.WellFormed) (hd : digest.Supported)
    (hlook : store.hasContent tree digest = .ok present) :
    Laid store digest data tree ((store.layDown digest data present).run tree).2 := by
  cases present with
  | true =>
      rw [layDown, if_pos rfl, Action.run_pure]
      exact laid_of_widens (FileTree.Widens.refl tree)
  | false =>
      rw [layDown, if_neg (by simp)]
      rcases run_placeContent_anywhere store hd data tree with
        ⟨_, mid, hrun, hwidens⟩ | ⟨place, mid, hrun, hbelow, hlocate, hwrote⟩
      · rw [hrun]
        exact laid_of_widens hwidens
      rw [hrun]
      refine ⟨hwrote.grows, fun other bytes hother => hwrote.file_iff ?_,
        fun other bytes hfile => ?_⟩
      · rintro rfl
        exact hother hbelow
      · by_cases hother : other = place
        · -- a settled root would have led there before, and the look would have found the file
          subst hother
          refine Or.inr ⟨fun base hleads => ?_, hbelow, hwrote.here⟩
          have hthere := hwf.locate_of_stands hwrote.grows (leads_contentPath hleads hd) hlocate
            hfile
          have hfound := (hasContent_eq_ok hlook).2 ⟨_, _, hthere, hfile⟩
          cases hfound
        · exact Or.inl ((hwrote.file_iff hother).2 hfile)

/-- Directories that are made later on change nothing about it. -/
theorem Laid.widens (h : Laid store digest data tree mid) (hwidens : mid.Widens after) :
    Laid store digest data tree after where
  grows := h.grows.trans hwidens.grows
  elsewhere := by
    intro place bytes hplace
    rw [hwidens.file_iff]
    exact h.elsewhere place bytes fun hbelow => hplace (hbelow.mono hwidens.grows)
  stays := by
    intro place bytes hfile
    rw [hwidens.file_iff, hwidens.file_iff]
    exact (h.stays place bytes hfile).imp_right fun ⟨hlate, hbelow, hdata⟩ =>
      ⟨hlate, hbelow.mono hwidens.grows, hdata⟩

/-- It leaves every bucket as it was. -/
theorem Laid.bucket_iff (h : Laid store digest data tree mid)
    (hplace : store.Below mid (bucketNames key) place) :
    mid.get? place = some (.file bytes) ↔ tree.get? place = some (.file bytes) :=
  h.elsewhere place bytes fun hbelow => hplace.bucket_ne hbelow rfl

theorem layDown_failure {failure : Failure} (hd : digest.Supported)
    (h : (store.layDown digest data present).run tree = (.error failure, mid)) :
    ∃ fault, failure = refused "cache_put" (store.contentPath digest) fault := by
  cases present with
  | true =>
      rw [layDown, if_pos rfl, Action.run_pure] at h
      cases h
  | false =>
      rw [layDown, if_neg (by simp)] at h
      rcases run_placeContent_anywhere store hd data tree with
        ⟨fault, _, hrun, _⟩ | ⟨_, _, hrun, _⟩
      · rw [hrun] at h
        cases h
        exact ⟨fault, rfl⟩
      · rw [hrun] at h
        cases h

/-! ## The whole of a put -/

/-- A file is new where nothing stood. -/
def Appears (tree after : FileTree) (place : Location) : Prop :=
  tree.get? place = none ∧ ∃ bytes, after.get? place = some (.file bytes)

/-- **What a put keeps to**, whatever the tree holds and however it ends. -/
structure Restrained (store : Store) (key url : String) (data : Bytes) (declared : Option String)
    (tree : FileTree) (result : Except Failure String) (after : FileTree) : Prop where
  /-- An integrity error leaves everything as it was. -/
  integrity : ∀ report, result = .error (.diagnosed report) → report.kind.isIntegrity = true →
    after = tree
  directories : ∀ place, tree.get? place = some .directory → after.get? place = some .directory
  /-- Files stay as they are, the bucket of the key goes on behind what it held, and a file gives
  way to the content only behind a root that comes into being late. -/
  files : ∀ place bytes, tree.get? place = some (.file bytes) →
    after.get? place = some (.file bytes) ∨
    (store.Below after (bucketNames key) place ∧
      ∃ more, after.get? place = some (.file (bytes ++ more))) ∨
    ((∀ base, ¬ tree.Leads store.root base) ∧
      (∃ digest, verify key url data declared = .ok digest ∧
        store.Below after (contentNames digest) place) ∧
      after.get? place = some (.file data))
  /-- At most one file is new among the contents, at most one in the index, and none elsewhere. -/
  appears : ∃ content bucket, ∀ place, Appears tree after place →
    (place = content ∧ ∃ digest, verify key url data declared = .ok digest ∧
      store.Below after (contentNames digest) content) ∨
    (place = bucket ∧ store.Below after (bucketNames key) bucket)
  /-- A failure of any kind leaves every bucket as it was. -/
  failed : ∀ failure, result = .error failure → ∀ other place bytes,
    store.Below after (bucketNames other) place →
    (after.get? place = some (.file bytes) ↔ tree.get? place = some (.file bytes))
  /-- A put that is met has added one line to the bucket of the key. -/
  returned : ∀ token, result = .ok token → ∃ place line,
    store.Below after (bucketNames key) place ∧ 10 ∉ line ∧ 13 ∉ line ∧
    after.get? place = some (.file (tree.content place ++ 10 :: line))

/-- **The frame of a put**: every file that was there stays as it is, but the bucket of the key,
which goes on behind what it held. -/
structure Framed (store : Store) (key url : String) (data : Bytes) (declared : Option String)
    (tree : FileTree) (result : Except Failure String) (after : FileTree) : Prop
    extends Restrained store key url data declared tree result after where
  unchanged : ∀ place bytes, tree.get? place = some (.file bytes) →
    after.get? place = some (.file bytes) ∨
    (store.Below after (bucketNames key) place ∧
      ∃ more, after.get? place = some (.file (bytes ++ more)))

/-- **A put overwrites** what has been in the content's own place and was something else. -/
def Overwrites (store : Store) (key url : String) (data : Bytes) (declared : Option String)
    (tree after : FileTree) : Prop :=
  ∃ digest place bytes, verify key url data declared = .ok digest ∧
    store.Below after (contentNames digest) place ∧ bytes ≠ data ∧
    tree.get? place = some (.file bytes) ∧ after.get? place = some (.file data)

/-- A refusal of the file system is no integrity error. -/
theorem refused_kind {operation : String} {path : Path} {fault : FileTree.Fault}
    {report : Diagnostic} (h : refused operation path fault = .diagnosed report) :
    report.kind.isIntegrity = false := by
  unfold refused at h
  split at h
  · cases h
    rfl
  · cases h

/-- A put that fails before anything is changed. -/
theorem restrained_untouched {failure : Failure} :
    Restrained store key url data declared tree (.error failure) tree where
  integrity := fun _ _ _ => rfl
  directories := fun _ h => h
  files := fun _ _ h => Or.inl h
  appears := by
    refine ⟨[], [], fun place ⟨hnone, _, hfile⟩ => ?_⟩
    rw [hnone] at hfile
    cases hfile
  failed := fun _ _ _ _ _ _ => Iff.rfl
  returned := nofun

/-- New files stand at two places at most, since the root leads to a single place. -/
theorem appears_of_below (hverify : verify key url data declared = .ok digest)
    (h : ∀ place, Appears tree after place →
      store.Below after (contentNames digest) place ∨ store.Below after (bucketNames key) place) :
    ∃ content bucket, ∀ place, Appears tree after place →
      (place = content ∧ ∃ digest, verify key url data declared = .ok digest ∧
        store.Below after (contentNames digest) content) ∨
      (place = bucket ∧ store.Below after (bucketNames key) bucket) := by
  cases hbase : after.locate store.root with
  | error refusal =>
      refine ⟨[], [], fun place happears => ?_⟩
      rcases h place happears with ⟨base, hplace, _⟩ | ⟨base, hplace, _⟩
      · rw [hbase] at hplace
        cases hplace
      · rw [hbase] at hplace
        cases hplace
  | ok base =>
      have hcontent : store.Below after (contentNames digest) (base ++ contentNames digest) :=
        ⟨base, hbase, rfl⟩
      have hbucket : store.Below after (bucketNames key) (base ++ bucketNames key) :=
        ⟨base, hbase, rfl⟩
      refine ⟨base ++ contentNames digest, base ++ bucketNames key, fun place happears => ?_⟩
      rcases h place happears with hplace | hplace
      · exact Or.inl ⟨hplace.unique hcontent, digest, hverify, hcontent⟩
      · exact Or.inr ⟨hplace.unique hbucket, hbucket⟩

/-- A put that fails once its content is verified. -/
theorem restrained_of_laid {failure : Failure} (hverify : verify key url data declared = .ok digest)
    (hlaid : Laid store digest data tree after)
    (hkind : ∀ report, failure = .diagnosed report → report.kind.isIntegrity = false) :
    Restrained store key url data declared tree (.error failure) after where
  integrity := by
    intro report hresult hintegrity
    cases hresult
    rw [hkind report rfl] at hintegrity
    cases hintegrity
  directories := fun _ hdir => hlaid.grows.directory _ hdir
  files := by
    intro place bytes hfile
    exact (hlaid.stays place bytes hfile).imp_right fun ⟨hlate, hplace, hdata⟩ =>
      Or.inr ⟨hlate, ⟨digest, hverify, hplace⟩, hdata⟩
  appears := by
    refine appears_of_below hverify fun place ⟨hnone, bytes, hfile⟩ => Or.inl ?_
    by_contra hplace
    rw [(hlaid.elsewhere place bytes hplace), hnone] at hfile
    cases hfile
  failed := fun _ _ _ _ _ hplace => hlaid.bucket_iff hplace
  returned := nofun

/-- A put that is met. -/
theorem restrained_of_wrote (hverify : verify key url data declared = .ok digest)
    (hlaid : Laid store digest data tree mid) (hplace : store.Below after (bucketNames key) place)
    (hwrote : mid.Wrote after place (mid.content place ++ lineOctets key url digest data.length)) :
    Restrained store key url data declared tree (.ok digest.token) after := by
  obtain ⟨line, hline, hfeed, hreturn⟩ :=
    Cache.Bucket.encode_line (Cache.Bucket.visible_payload key url digest.token data.length)
  have hlater : ∀ {names place}, store.Below mid names place → store.Below after names place :=
    fun hbelow => hbelow.mono hwrote.grows
  -- the bucket is no place of content, so that laying content down has not changed it
  have hbucket : ∀ bytes, mid.get? place = some (.file bytes) ↔
      tree.get? place = some (.file bytes) :=
    fun bytes => hlaid.elsewhere place bytes fun hbelow => hplace.bucket_ne (hlater hbelow) rfl
  have hcontent : mid.content place = tree.content place := FileTree.content_congr hbucket
  refine ⟨nofun, ?_, ?_, ?_, nofun, ?_⟩
  · intro other hdir
    exact hwrote.grows.directory _ (hlaid.grows.directory _ hdir)
  · intro other bytes hfile
    by_cases hother : other = place
    · -- the bucket goes on behind what it held
      subst hother
      have hheld : mid.content other = bytes :=
        FileTree.content_of_get? ((hbucket bytes).2 hfile)
      refine Or.inr (Or.inl ⟨hplace, lineOctets key url digest data.length, ?_⟩)
      rw [hwrote.here, hheld]
    · rw [hwrote.file_iff hother, hwrote.file_iff hother]
      exact (hlaid.stays other bytes hfile).imp_right fun ⟨hlate, hbelow, hdata⟩ =>
        Or.inr ⟨hlate, ⟨digest, hverify, hlater hbelow⟩, hdata⟩
  · refine appears_of_below hverify fun other ⟨hnone, bytes, hfile⟩ => ?_
    by_cases hother : other = place
    · exact Or.inr (hother ▸ hplace)
    · refine Or.inl ?_
      by_contra hno
      rw [hwrote.file_iff hother,
        hlaid.elsewhere other bytes fun hbelow => hno (hlater hbelow), hnone] at hfile
      cases hfile
  · intro token _
    refine ⟨place, line, hplace, hfeed, hreturn, ?_⟩
    rw [hwrote.here, hcontent, lineOctets, hline]

/-- A put keeps to it in any file tree. -/
theorem restrained_put (h : tree.WellFormed) (store : Store) (key url : String) (data : Bytes)
    (declared : Option String) :
    Restrained store key url data declared tree ((store.put key url data declared).run tree).1
      ((store.put key url data declared).run tree).2 := by
  rw [run_put]
  cases hverify : verify key url data declared with
  | error failure => exact restrained_untouched
  | ok digest =>
      have hd := (verify_eq_ok_iff.1 hverify).1.supported
      cases hlook : store.hasContent tree digest with
      | error failure => simpa only [hlook] using restrained_untouched
      | ok present =>
          simp only [hlook]
          have hlaid :
              Laid store digest data tree ((store.layDown digest data present).run tree).2 :=
            laid_layDown h hd hlook
          rcases hlay : (store.layDown digest data present).run tree with ⟨result, mid⟩
          rw [hlay] at hlaid
          cases result with
          | error failure =>
              obtain ⟨fault, rfl⟩ := layDown_failure hd hlay
              exact restrained_of_laid hverify hlaid fun report => refused_kind
          | ok _ =>
              rcases run_appendRecord_anywhere store key url digest data.length mid with
                ⟨fault, after, hrun, hwidens⟩ | ⟨place, after, hrun, hplace, hwrote⟩
              · simp only [hrun]
                exact restrained_of_laid hverify (hlaid.widens hwidens) fun report => refused_kind
              · simp only [hrun]
                exact restrained_of_wrote hverify hlaid hplace hwrote

namespace Restrained

/-- **A put has its frame exactly if it overwrites nothing.** -/
theorem framed_iff (h : Restrained store key url data declared tree result after) :
    Framed store key url data declared tree result after ↔
      ¬ Overwrites store key url data declared tree after := by
  constructor
  · rintro hframed ⟨digest, place, bytes, _, hplace, hne, hbefore, hafter⟩
    rcases hframed.unchanged place bytes hbefore with hsame | ⟨hbucket, _⟩
    · rw [hafter] at hsame
      cases hsame
      exact hne rfl
    · exact hbucket.bucket_ne hplace rfl
  · refine fun hnot => ⟨h, fun place bytes hbefore => ?_⟩
    rcases h.files place bytes hbefore with hsame | hbucket | ⟨_, ⟨digest, hverify, hplace⟩, hafter⟩
    · exact Or.inl hsame
    · exact Or.inr hbucket
    · -- the content has come to its place, and so it has been there before
      left
      by_contra hchanged
      refine hnot ⟨digest, place, bytes, hverify, hplace, ?_, hbefore, hafter⟩
      rintro rfl
      exact hchanged hafter

/-- **Only a root that comes into being late** lets a put overwrite anything. -/
theorem late_of_overwrites (h : Restrained store key url data declared tree result after)
    (hover : Overwrites store key url data declared tree after) (base : Location) :
    ¬ tree.Leads store.root base := by
  obtain ⟨digest, place, bytes, _, hplace, hne, hbefore, hafter⟩ := hover
  rcases h.files place bytes hbefore with hsame | ⟨hbucket, _⟩ | ⟨hlate, _⟩
  · rw [hafter] at hsame
    cases hsame
    exact absurd rfl hne
  · exact absurd rfl (hbucket.bucket_ne hplace)
  · exact hlate base

end Restrained

/-- **The frame of a put, in any file tree.** Where the root is settled, every put has its frame,
whether it returns or fails. A put without it has overwritten what was in the place of its content,
and nothing but that. -/
theorem framed_put (h : tree.WellFormed) (store : Store) (key url : String) (data : Bytes)
    (declared : Option String) :
    (∀ base, tree.Leads store.root base →
      Framed store key url data declared tree ((store.put key url data declared).run tree).1
        ((store.put key url data declared).run tree).2) ∧
    (Framed store key url data declared tree ((store.put key url data declared).run tree).1
        ((store.put key url data declared).run tree).2 ↔
      ¬ Overwrites store key url data declared tree
        ((store.put key url data declared).run tree).2) ∧
    Restrained store key url data declared tree ((store.put key url data declared).run tree).1
      ((store.put key url data declared).run tree).2 := by
  have hrest := restrained_put h store key url data declared
  refine ⟨fun base hleads => ?_, hrest.framed_iff, hrest⟩
  rw [hrest.framed_iff]
  exact fun hover => hrest.late_of_overwrites hover base hleads

/-- Below the root something else stands in the place of the content `b`. The put of `b` returns
and leaves it there. -/
theorem framed_put_spoiled :
    (spoiledTree "store").WellFormed ∧
      (spoiledTree "store").Leads (relative ["store"]).root ["", "store"] ∧
      Framed (relative ["store"]) "k" "u" [98] (some "md5-kutf/uauL+w61xx3dTFXjw==")
        (spoiledTree "store")
        (((relative ["store"]).put "k" "u" [98] (some "md5-kutf/uauL+w61xx3dTFXjw==")).run
          (spoiledTree "store")).1
        (((relative ["store"]).put "k" "u" [98] (some "md5-kutf/uauL+w61xx3dTFXjw==")).run
          (spoiledTree "store")).2 ∧
      (spoiledTree "store").get? (spoiledPlace "store") = some (.file [120]) ∧
      (((relative ["store"]).put "k" "u" [98] (some "md5-kutf/uauL+w61xx3dTFXjw==")).run
        (spoiledTree "store")).1.isOk = true ∧
      (((relative ["store"]).put "k" "u" [98] (some "md5-kutf/uauL+w61xx3dTFXjw==")).run
        (spoiledTree "store")).2.get? (spoiledPlace "store") = some (.file [120]) := by
  have hwell : (spoiledTree "store").WellFormed :=
    FileTree.wellFormed_of_listed (by decide +kernel)
  have hleads : (spoiledTree "store").Leads (relative ["store"]).root ["", "store"] :=
    FileTree.leads_of_straight _ (by decide)
  exact ⟨hwell, hleads, (framed_put hwell (relative ["store"]) "k" "u" [98] _).1 _ hleads,
    by decide +kernel⟩

/-! ## Content that gives way -/

/-- **Not every file stays**: through a root that comes into being late, a put replaces a file that
is no bucket. -/
theorem replaced_late_root :
    (spoiledTree "store").WellFormed ∧
      (spoiledTree "store").get? (spoiledPlace "store") = some (.file [120]) ∧
      (((late "store").put "k" "u" [98] (some "md5-kutf/uauL+w61xx3dTFXjw==")).run
        (spoiledTree "store")).1.isOk = true ∧
      (((late "store").put "k" "u" [98] (some "md5-kutf/uauL+w61xx3dTFXjw==")).run
        (spoiledTree "store")).2.get? (spoiledPlace "store") = some (.file [98]) ∧
      (((late "store").put "k" "u" [98] (some "md5-kutf/uauL+w61xx3dTFXjw==")).run
        (spoiledTree "store")).2.locate (late "store").root = .ok ["", "store"] ∧
      ["", "store"] ++ bucketNames "k" ≠ spoiledPlace "store" :=
  ⟨FileTree.wellFormed_of_listed (by decide +kernel), by decide +kernel⟩

end LockPrefetch.Store
