import LockPrefetch.Proofs.Cache.Meeting

/-! # Roots that come into being late

The path `new/../store` leads nowhere as long as there is no `new`, so nothing is found below
it. The first put through such a root makes `new`, and from then on the path leads to `store`,
which may be a store that has been there all along. What holds of every settled root can fail
here: the old records are seen behind the first put. This module makes such a tree and follows
a put through it (`run_put_late`). -/

set_option autoImplicit false

namespace LockPrefetch

namespace FileTree

variable {tree : FileTree}

/-- The names that go up from a directory `new`. -/
def upAgain : List String := ["new", ".."]

theorem walk_upAgain_missing {place : Location} (hdir : tree.get? place = some .directory)
    (hnone : tree.get? (place ++ ["new"]) = none) :
    tree.walk place upAgain = .error .noEntry := by
  have hshort : ¬ nameLimit < octets "new" := by decide
  simp [upAgain, walk, hdir, hnone, hshort]

theorem walk_upAgain {place : Location} (hdir : tree.get? place = some .directory)
    (hnew : tree.get? (place ++ ["new"]) = some .directory) :
    tree.walk place upAgain = .ok place := by
  have hshort : ¬ nameLimit < octets "new" := by decide
  simp [upAgain, walk, hdir, hnew, hshort]

/-- **Going up from a directory that is not there makes it.** -/
theorem reaches_upAgain (hdir : tree.get? tree.workingDirectory = some .directory)
    (hnone : tree.get? (tree.workingDirectory ++ ["new"]) = none) :
    tree.Reaches (tree.set (tree.workingDirectory ++ ["new"]) .directory) .workingDirectory
      upAgain tree.workingDirectory := by
  have hboth : Admissible ⟨.workingDirectory, upAgain⟩ := ⟨by decide, by decide⟩
  have hone : Admissible ⟨.workingDirectory, ["new"]⟩ := ⟨by decide, by decide⟩
  have hpaved := paved_set hnone
  have hdir' := hpaved.get?_eq_some hdir
  have hnew : (tree.set (tree.workingDirectory ++ ["new"]) .directory).get?
      (tree.workingDirectory ++ ["new"]) = some .directory := by
    rw [get?_set _ (by simp), if_pos rfl]
  have hrooted : (tree.set (tree.workingDirectory ++ ["new"]) .directory).Rooted
      ⟨.workingDirectory, upAgain⟩ tree.workingDirectory :=
    ⟨walk_upAgain hdir' hnew, hdir'⟩
  refine ⟨?_, hrooted, Or.inr (walk_upAgain_missing hdir hnone)⟩
  have hlocate : tree.locate ⟨.workingDirectory, upAgain⟩ = .error .noEntry := by
    rw [hboth.locate]
    exact walk_upAgain_missing hdir hnone
  -- the chain goes back to `new`, whose directory is there, and makes it
  have hlocateNew : tree.locate ⟨.workingDirectory, ["new"]⟩ =
      .ok (tree.workingDirectory ++ ["new"]) := by
    rw [hone.locate]
    refine (walk_eq_ok_iff (by decide)).2 ⟨rfl, passable_cons.2 ⟨hdir, passable_nil⟩, by decide⟩
  have hmake : (ensureChain .workingDirectory ["new"]).run tree =
      (.ok (), tree.set (tree.workingDirectory ++ ["new"]) .directory) := by
    have hfirst : (ensureDirectory ⟨.workingDirectory, ["new"]⟩).run tree =
        (.ok (), tree.set (tree.workingDirectory ++ ["new"]) .directory) := by
      simp [ensureDirectory, makeDirectory, hlocateNew, hnone]
    simp [ensureChain, hfirst]
  -- the first attempt misses `new`, and the second one finds the directory above it
  have hmiss : (ensureDirectory ⟨.workingDirectory, upAgain⟩).run tree =
      (.error (about ⟨.workingDirectory, upAgain⟩ .noEntry), tree) := by
    simp [ensureDirectory, makeDirectory, hlocate, about]
  have hagain := hrooted.ensureDirectory hboth
  have hchain : ensureChain .workingDirectory upAgain.reverse =
      ensureChain .workingDirectory ["..", "new"] := rfl
  have hback : ["..", "new"].reverse = upAgain := rfl
  rw [hchain, ensureChain]
  simp only [hback, hmiss, about, if_true]
  rw [Action.run_bind_ok hmake]
  exact hagain

end FileTree

namespace Store

open FileTree (octets Admissible upAgain)
open Cache (contentNames bucketNames)

/-! ## An old store -/

/-- A name that a directory of the old store may have. -/
structure Ordinary (name : String) : Prop where
  ne_up : name ≠ ".."
  ne_new : name ≠ "new"
  modest : FileTree.Modest (upAgain ++ [name]) 100

theorem Ordinary.straight {name : String} (h : Ordinary name) : ".." ∉ [name] :=
  fun hmem => h.ne_up (List.mem_singleton.1 hmem).symm

/-- The store below a name, with a root that goes up from `new` before. -/
def late (name : String) : Store := ⟨⟨.workingDirectory, upAgain ++ [name]⟩⟩

/-- A tree without `new`, and with a directory of a name in which the bucket of a key holds some
octets. -/
def oldTree (name key : String) (bytes : Bytes) : FileTree where
  nodes :=
    [([""], .directory), (["", name], .directory),
      (["", name] ++ (bucketNames key).take 1, .directory),
      (["", name] ++ (bucketNames key).take 2, .directory),
      (["", name] ++ (bucketNames key).take 3, .directory),
      (["", name] ++ bucketNames key, .file bytes)]
  workingDirectory := [""]

/-- The place of the content `b` below a name. -/
def spoiledPlace (name : String) : Location :=
  ["", name, "content-v2", "md5", "92", "eb", "5ffee6ae2fec3ad71c777531578f"]

/-- A tree without `new`, and with a directory of a name in which something else stands in the
place of the content `b`. -/
def spoiledTree (name : String) : FileTree where
  nodes :=
    [([""], .directory), (["", name], .directory), (["", name, "content-v2"], .directory),
      (["", name, "content-v2", "md5"], .directory),
      (["", name, "content-v2", "md5", "92"], .directory),
      (["", name, "content-v2", "md5", "92", "eb"], .directory),
      (spoiledPlace name, .file [120])]
  workingDirectory := [""]

variable {name key url : String} {bytes data : Bytes} {place : Location}

theorem get?_oldTree {node : FileTree.Node} (h : (oldTree name key bytes).get? place = some node) :
    (node = .directory ∧ (place = [] ∨ place = [""] ∨
      ∃ n, n < 4 ∧ place = ["", name] ++ (bucketNames key).take n)) ∨
    (node = .file bytes ∧ place = ["", name] ++ bucketNames key) := by
  cases place with
  | nil =>
      cases h
      exact Or.inl ⟨rfl, Or.inl rfl⟩
  | cons first rest =>
      simp only [FileTree.get?, oldTree, Ordered.get?] at h
      split at h
      · cases h
        exact Or.inl ⟨rfl, Or.inr (Or.inl (by assumption ▸ rfl))⟩
      split at h
      · cases h
        exact Or.inl ⟨rfl, Or.inr (Or.inr ⟨0, by omega, by simp_all⟩)⟩
      split at h
      · cases h
        exact Or.inl ⟨rfl, Or.inr (Or.inr ⟨1, by omega, Eq.symm (by assumption)⟩)⟩
      split at h
      · cases h
        exact Or.inl ⟨rfl, Or.inr (Or.inr ⟨2, by omega, Eq.symm (by assumption)⟩)⟩
      split at h
      · cases h
        exact Or.inl ⟨rfl, Or.inr (Or.inr ⟨3, by omega, Eq.symm (by assumption)⟩)⟩
      split at h
      · cases h
        exact Or.inr ⟨rfl, Eq.symm (by assumption)⟩
      · cases h

theorem get?_oldTree_bucket :
    (oldTree name key bytes).get? (["", name] ++ bucketNames key) = some (.file bytes) := by
  simp [FileTree.get?, oldTree, Ordered.get?, bucketNames, Cache.shards]

theorem get?_oldTree_new (hname : Ordinary name) :
    (oldTree name key bytes).get? ["", "new"] = none := by
  simp [FileTree.get?, oldTree, Ordered.get?, bucketNames, hname.ne_new]

/-- The tree is one that a file system can hold. -/
theorem wellFormed_oldTree (name key : String) (bytes : Bytes) :
    (oldTree name key bytes).WellFormed := by
  intro place last node h
  have hlast : place = (place ++ [last]).dropLast := by simp
  rcases get?_oldTree h with ⟨_, heq | heq | ⟨n, hn, heq⟩⟩ | ⟨_, heq⟩
  · simp at heq
  · rw [heq] at hlast
    subst hlast
    rfl
  · rw [heq] at hlast
    subst hlast
    obtain rfl | rfl | rfl | rfl : n = 0 ∨ n = 1 ∨ n = 2 ∨ n = 3 := by omega
    all_goals simp [FileTree.get?, oldTree, Ordered.get?, bucketNames, Cache.shards]
  · rw [heq] at hlast
    subst hlast
    simp [FileTree.get?, oldTree, Ordered.get?, bucketNames, Cache.shards]

/-- The only file of the tree is the bucket. -/
theorem eq_of_file_oldTree {found : Bytes}
    (h : (oldTree name key bytes).get? place = some (.file found)) :
    place = ["", name] ++ bucketNames key := by
  rcases get?_oldTree h with ⟨hnode, _⟩ | ⟨_, heq⟩
  · cases hnode
  · exact heq

/-- The bucket of the old store is read through its name. -/
theorem readFile_oldTree (name : String) (hname : name ≠ "..")
    (hmodest : FileTree.Modest [name] 100) (key : String) (bytes : Bytes) :
    (oldTree name key bytes).readFile ((relative [name]).bucketPath key) = .ok bytes := by
  have hstraight : ".." ∉ [name] := fun hmem => hname (List.mem_singleton.1 hmem).symm
  have hleads : (oldTree name key bytes).Leads (relative [name]).root ["", name] :=
    FileTree.leads_of_straight _ hstraight
  have hnames : ".." ∉ [name] ++ Cache.bucketNames key := by
    rw [List.mem_append]
    rintro (hmem | hmem)
    · exact hstraight hmem
    · exact Cache.straight_bucketNames key hmem
  have hall : FileTree.Modest ([name] ++ Cache.bucketNames key) 176 :=
    hmodest.append (modest_bucketNames key)
  have hlocate := (hall.admissible (by decide) (by simp)).locate (oldTree name key bytes)
  refine (FileTree.readFile_eq_ok_iff (leads_bucketPath hleads key)).2 ⟨?_, get?_oldTree_bucket⟩
  rw [bucketPath_eq]
  refine hlocate.trans ((FileTree.walk_eq_ok_iff hnames).2 ⟨rfl, ?_, fun other hother => ?_⟩)
  · simp [Cache.bucketNames, Cache.shards, FileTree.passable_cons, FileTree.passable_nil,
      FileTree.anchorPlace, FileTree.get?, oldTree, Ordered.get?]
  · have := hall.octets_le other hother
    unfold FileTree.nameLimit
    omega

/-- A store below `store`. In its bucket of `k` a letter stands in front of a record. -/
def letteredTree : FileTree :=
  oldTree "store" "k" ([120] ++ lineOctets "k" "u" (defaultDigest [97]) 1)

/-- The letter is not read as a record. -/
theorem entries_letteredTree : (relative ["store"]).entries letteredTree "k" =
    .ok [.stored "k" "u" (defaultDigest [97]).token 1] := by
  have hsize : Bytes.Measurable [97] := Bytes.measurable_of_lt (by decide)
  have hletter : Encoding.Utf8.decode [120] = .ok ['x'] := rfl
  have hnothing : Cache.Bucket.entriesOf "k" ['x'] = .ok [] := rfl
  have hread := readFile_oldTree "store" (by decide) ⟨by decide, by decide⟩ "k"
    ([120] ++ lineOctets "k" "u" (defaultDigest [97]) 1)
  rw [letteredTree, entries_of_bucket hread (Encoding.Utf8.decode_append hletter _)]
  exact Cache.Bucket.entriesOf_append_line hsize.sized hnothing

/-! ## A put through a late root -/

theorem contentPath_late (name : String) (data : Bytes) :
    (late name).contentPath (defaultDigest data) =
      ⟨.workingDirectory, upAgain ++ (name :: contentNames (defaultDigest data))⟩ := by
  rw [contentPath_eq _ (of_defaultDigest data).supported, late, List.append_assoc]
  rfl

theorem bucketPath_late (name key : String) :
    (late name).bucketPath key =
      ⟨.workingDirectory, upAgain ++ (name :: bucketNames key)⟩ := by
  rw [bucketPath_eq, late, List.append_assoc]
  rfl

theorem get?_oldTree_base : (oldTree name key bytes).get? [""] = some .directory := rfl

/-- As long as there is no `new`, nothing is found through the late root. -/
theorem lookUp_late (hname : Ordinary name) {more : List String} {bound : Nat}
    (hmore : FileTree.Modest more bound) (hbound : bound ≤ 1000) :
    (oldTree name key bytes).lookUp ⟨.workingDirectory, upAgain ++ (name :: more)⟩ =
      .error .noEntry := by
  have hpath : Admissible ⟨.workingDirectory, upAgain ++ (name :: more)⟩ := by
    have := (hname.modest.append hmore).admissible
      (by unfold FileTree.pathLimit; omega) (by simp)
    simpa using this
  have hlocate := hpath.locate (oldTree name key bytes)
  rw [FileTree.walk_append] at hlocate
  have hwalk : (oldTree name key bytes).walk
      ((oldTree name key bytes).anchorPlace .workingDirectory) upAgain = .error .noEntry :=
    FileTree.walk_upAgain_missing get?_oldTree_base (get?_oldTree_new hname)
  rw [hwalk] at hlocate
  rw [FileTree.lookUp, hlocate]
  rfl

/-- The tree once `new` is there. -/
def openedTree (name key : String) (bytes : Bytes) : FileTree :=
  (oldTree name key bytes).set ["", "new"] .directory

theorem get?_openedTree_file {found : Bytes}
    (h : (openedTree name key bytes).get? place = some (.file found)) :
    place = ["", name] ++ bucketNames key := by
  rw [openedTree, FileTree.get?_set _ (by simp)] at h
  split at h
  · cases h
  · exact eq_of_file_oldTree h

theorem reaches_late (hname : Ordinary name) :
    (oldTree name key bytes).Reaches (openedTree name key bytes) (late name).root.anchor upAgain
      [""] :=
  FileTree.reaches_upAgain (show (oldTree name key bytes).get? _ = _ from get?_oldTree_base)
    (get?_oldTree_new hname)

/-- Nothing is in the way of content below the old store. -/
theorem free_content_late (hname : Ordinary name) (key : String) (bytes data : Bytes) :
    (openedTree name key bytes).Free .workingDirectory upAgain [""]
      ([name] ++ contentNames (defaultDigest data)) := by
  refine free_content hname.straight hname.modest (by omega) data ?_ ?_
  · intro before hbefore found hfile
    have hplace := get?_openedTree_file hfile
    have hway := hbefore.trans (List.dropLast_prefix _)
    cases before with
    | nil => simp at hplace
    | cons first before =>
        obtain ⟨rfl, hbehind⟩ := List.cons_prefix_cons.1 hway
        have hbucket : before = bucketNames key := by simpa using hplace
        rw [hbucket] at hbehind
        exact Cache.bucketNames_not_prefix _ key hbehind
  · intro hdir
    rw [openedTree, FileTree.get?_set _ (by simp), if_neg (by simp [contentNames])] at hdir
    rcases get?_oldTree hdir with ⟨_, heq | heq | ⟨n, hn, heq⟩⟩ | ⟨hnode, _⟩
    · simp at heq
    · simp at heq
    · -- the directories of the old store are those of its index
      have hlength := congrArg List.length heq
      simp only [List.length_append, List.length_cons, List.length_nil, List.length_take,
        Cache.length_contentNames, Cache.length_bucketNames] at hlength
      omega
    · cases hnode

theorem get?_openedTree_bucket :
    (openedTree name key bytes).get? (["", name] ++ bucketNames key) = some (.file bytes) := by
  rw [openedTree, FileTree.get?_set _ (by simp), if_neg (by simp [bucketNames]),
    get?_oldTree_bucket]

/-- Nothing is in the way of the bucket of the old store. -/
theorem free_bucket_late (hname : Ordinary name) (key : String) (bytes : Bytes) :
    (openedTree name key bytes).Free .workingDirectory upAgain [""]
      ([name] ++ bucketNames key) := by
  refine free_bucket hname.straight hname.modest (by omega) key ?_ ?_
  · intro before hbefore found hfile
    have heq := congrArg List.length (get?_openedTree_file hfile)
    have hlength := hbefore.length_le
    simp only [List.length_append, List.length_cons, List.length_nil, List.length_dropLast,
      Cache.length_bucketNames] at heq hlength
    omega
  · intro hdir
    rw [show [""] ++ ([name] ++ bucketNames key) = ["", name] ++ bucketNames key from rfl,
      get?_openedTree_bucket] at hdir
    cases hdir

/-- The content is not seen before the put. -/
theorem absent_late (hname : Ordinary name) (key : String) (bytes data : Bytes) :
    (late name).hasContent (oldTree name key bytes) (defaultDigest data) = .ok false := by
  refine hasContent_of_missing ?_
  rw [contentPath_late]
  exact lookUp_late hname (modest_contentNames (of_defaultDigest data).supported) (by omega)

/-- **A put through a late root** is met, and what is read then is what the old store holds. -/
theorem run_put_late (hname : Ordinary name) (key url : String) (bytes data : Bytes) :
    ∃ after,
      ((late name).put key url data none).run (oldTree name key bytes) =
        (.ok (defaultDigest data).token, after) ∧
      after.Leads (late name).root ["", name] ∧
      after.readFile ((late name).bucketPath key) =
        .ok (bytes ++ lineOctets key url (defaultDigest data) data.length) := by
  have hroot : (late name).root.names = upAgain ++ [name] := rfl
  obtain ⟨laid, after, hput, hlaid, hafter, hlocate⟩ :=
    run_put_free hroot (reaches_late hname) (verify_default key url data)
      (absent_late hname key bytes data) (free_content_late hname key bytes data)
      (free_bucket_late hname key bytes)
  have hrooted := ((reaches_late hname).rooted.mono hlaid.grows).mono hafter.grows
  have hleads : after.Leads (late name).root ["", name] :=
    ⟨upAgain, [name], [""], rfl, hname.straight, hrooted.walk, rfl⟩
  have hcontent : (openedTree name key bytes).content ([""] ++ ([name] ++ bucketNames key)) =
      bytes := FileTree.content_of_get? get?_openedTree_bucket
  refine ⟨after, hput, hleads, ?_⟩
  refine (FileTree.readFile_eq_ok_iff (leads_bucketPath hleads key)).2 ⟨hlocate, ?_⟩
  rw [hcontent] at hafter
  exact hafter.here

/-- **Behind it, the old entries are seen**, if the bucket of the old store holds a record. -/
theorem entries_of_late {after : FileTree} {oldUrl : String} {old : Bytes}
    (hold : old.Measurable) (hdata : data.Measurable)
    (hread : after.readFile ((late name).bucketPath key) =
      .ok (lineOctets key oldUrl (defaultDigest old) old.length ++
        lineOctets key url (defaultDigest data) data.length)) :
    (late name).entries after key =
      .ok [.stored key oldUrl (defaultDigest old).token old.length,
        .stored key url (defaultDigest data).token data.length] := by
  have hempty : Cache.Bucket.entriesOf key [] = .ok [] := rfl
  have hfirst := @Cache.Bucket.entriesOf_append_line key oldUrl (defaultDigest old).token _
    hold.sized key [] [] hempty
  have hboth := @Cache.Bucket.entriesOf_append_line key url (defaultDigest data).token _
    hdata.sized key _ _ hfirst
  rw [entries_of_bucket hread (Encoding.Utf8.decode_append (Encoding.Utf8.decode_encode _) _)]
  simpa using hboth

/-- Before it, the late root shows no entries. -/
theorem entries_late (hname : Ordinary name) (key : String) (bytes : Bytes) :
    (late name).entries (oldTree name key bytes) key = .ok [] := by
  refine entries_of_missing ?_
  rw [bucketPath_late]
  exact lookUp_late hname (modest_bucketNames key) (by omega)

end Store

end LockPrefetch
