import LockPrefetch.Proofs.Cache.Storing
import LockPrefetch.Proofs.FileTree.Clear

/-! # Puts that are met

Where nothing is in the way of the content and of the bucket of a key, both changes of a put
are made (`run_placeContent_free`, `run_appendRecord_free`), and a put whose content is
verified is met (`run_put_free`). The first names of the root may still have to be made. -/

set_option autoImplicit false

namespace LockPrefetch.Store

open FileTree (octets Admissible)
open Cache (contentNames bucketNames)

variable {store : Store} {tree mid : FileTree} {above rest : List String} {start : Location}
  {digest : Digest} {key url : String} {data : Bytes} {declared : Option String}

theorem contentPath_append (hroot : store.root.names = above ++ rest) (hd : digest.Supported) :
    store.contentPath digest =
      ⟨store.root.anchor, above ++ (rest ++ contentNames digest)⟩ := by
  rw [contentPath_eq store hd, hroot, List.append_assoc]

theorem bucketPath_append (hroot : store.root.names = above ++ rest) (key : String) :
    store.bucketPath key = ⟨store.root.anchor, above ++ (rest ++ bucketNames key)⟩ := by
  rw [bucketPath_eq, hroot, List.append_assoc]

theorem run_placeContent_free (hroot : store.root.names = above ++ rest) (hd : digest.Supported)
    (hreach : tree.Reaches mid store.root.anchor above start)
    (hfree : mid.Free store.root.anchor above start (rest ++ contentNames digest))
    (data : Bytes) :
    ∃ after, (store.placeContent digest data).run tree = (.ok (), after) ∧
      mid.Filed after (start ++ (rest ++ contentNames digest)) data := by
  obtain ⟨after, hrun, hfiled, _⟩ :=
    FileTree.run_changeBelow_free hreach hfree fun _ => data
  rw [placeContent_eq, contentPath_append hroot hd]
  exact ⟨after, run_restating_ok hrun, hfiled⟩

theorem run_appendRecord_free (hroot : store.root.names = above ++ rest)
    (hreach : tree.Reaches mid store.root.anchor above start)
    (hfree : mid.Free store.root.anchor above start (rest ++ bucketNames key))
    (url : String) (digest : Digest) (size : Nat) :
    ∃ after, (store.appendRecord key url digest size).run tree = (.ok (), after) ∧
      mid.Filed after (start ++ (rest ++ bucketNames key))
        (mid.content (start ++ (rest ++ bucketNames key)) ++ lineOctets key url digest size) ∧
      after.locate (store.bucketPath key) = .ok (start ++ (rest ++ bucketNames key)) := by
  obtain ⟨after, hrun, hfiled, hlocate⟩ :=
    FileTree.run_changeBelow_free hreach hfree (· ++ lineOctets key url digest size)
  rw [appendRecord_eq, bucketPath_append hroot]
  exact ⟨after, run_restating_ok hrun, hfiled, hlocate⟩

/-- Nothing is in the way of a bucket once content was laid down. -/
theorem free_of_filed {after : FileTree} {anchor : Path.Anchor} {bytes : Bytes}
    (hfree : mid.Free anchor above start (rest ++ bucketNames key))
    (hfiled : mid.Filed after (start ++ (rest ++ contentNames digest)) bytes) :
    after.Free anchor above start (rest ++ bucketNames key) := by
  have hlength : (rest ++ contentNames digest).length = rest.length + 5 := by simp
  refine ⟨hfree.nonempty, hfree.straight, hfree.short, hfree.admissible, ?_, ?_⟩
  · -- the content lies too deep to be on the way to a bucket
    intro before hbefore found hfile
    refine hfree.clear before hbefore found (hfiled.get?_of_file ?_ hfile)
    intro heq
    have hle := hbefore.length_le
    rw [List.append_cancel_left heq, hlength, List.length_dropLast, List.length_append,
      Cache.length_bucketNames] at hle
    omega
  · rw [← List.append_assoc] at hfiled ⊢
    rw [get?_bucket_of_filed hfiled, List.append_assoc]
    exact hfree.free

/-- **A put is met where nothing is in the way.** -/
theorem run_put_free (hroot : store.root.names = above ++ rest)
    (hreach : tree.Reaches mid store.root.anchor above start)
    (hverify : verify key url data declared = .ok digest)
    (habsent : store.hasContent tree digest = .ok false)
    (hcontent : mid.Free store.root.anchor above start (rest ++ contentNames digest))
    (hbucket : mid.Free store.root.anchor above start (rest ++ bucketNames key)) :
    ∃ laid after, (store.put key url data declared).run tree = (.ok digest.token, after) ∧
      mid.Filed laid (start ++ (rest ++ contentNames digest)) data ∧
      laid.Filed after (start ++ (rest ++ bucketNames key))
        (mid.content (start ++ (rest ++ bucketNames key)) ++
          lineOctets key url digest data.length) ∧
      after.locate (store.bucketPath key) = .ok (start ++ (rest ++ bucketNames key)) := by
  have hd := (verify_eq_ok_iff.1 hverify).1.supported
  obtain ⟨laid, hplace, hlaid⟩ := run_placeContent_free hroot hd hreach hcontent data
  have hrooted := hreach.rooted.mono hlaid.grows
  obtain ⟨after, happend, hafter, hlocate⟩ := run_appendRecord_free hroot
    (hrooted.reaches hbucket.admissible.above) (free_of_filed hbucket hlaid) url digest data.length
  have hsame : laid.content (start ++ (rest ++ bucketNames key)) =
      mid.content (start ++ (rest ++ bucketNames key)) := by
    rw [← List.append_assoc] at hlaid ⊢
    rw [FileTree.content, FileTree.content, get?_bucket_of_filed hlaid]
  rw [hsame] at hafter
  refine ⟨laid, after, ?_, hlaid, hafter, hlocate⟩
  rw [run_put]
  simp only [hverify, habsent, layDown, Bool.false_eq_true, if_false, hplace, happend]

/-! ## The default function -/

/-- The digest of content under the default function. -/
def defaultDigest (data : Bytes) : Digest :=
  ⟨Digest.defaultName, Hash.Algorithm.sha512.digest data⟩

theorem of_defaultDigest (data : Bytes) : (defaultDigest data).Of data :=
  ⟨.sha512, Hash.Algorithm.ofName?_name .sha512, rfl⟩

theorem verify_default (key url : String) (data : Bytes) :
    verify key url data none = .ok (defaultDigest data) :=
  verify_eq_ok_iff.2 ⟨of_defaultDigest data, rfl⟩

/-- The name of a function takes few octets and holds no NUL character, in any letter case. -/
theorem modest_name {name : String} {a : Hash.Algorithm}
    (h : Hash.Algorithm.ofName? name = some a) : FileTree.Modest [name] 7 where
  noNul := by
    have hnul : Char.ofNat 0 ∉ name.toList := Hash.Algorithm.not_mem_of_ofName? h (by decide)
    rw [List.any_cons, List.any_nil, Bool.or_false, List.any_eq_false]
    intro c hc hzero
    refine hnul ?_
    rwa [← Char.ofNat_toNat c, eq_of_beq hzero] at hc
  short := by
    have hlower := Hash.Algorithm.name_of_ofName? h
    have hsix : name.toList.length ≤ 6 := by
      have hlength := congrArg List.length hlower
      rw [List.length_map] at hlength
      rw [hlength]
      cases a <;> decide
    have hascii : ∀ c ∈ name.toList, c.toNat < 0x80 := by
      intro c hc
      by_contra hlarge
      -- a character that is not ASCII is its own lower case
      have hself : c.toLower = c := by
        unfold Char.toLower
        rw [dif_neg]
        rintro ⟨_, hupper⟩
        rw [UInt32.le_iff_toNat_le] at hupper
        exact hlarge (Nat.lt_of_le_of_lt hupper (by decide))
      have hmem := List.mem_map_of_mem (f := Char.toLower) hc
      rw [hlower, hself] at hmem
      have hname : ∀ d ∈ a.name.toList, d.toNat < 0x80 := by
        cases a <;> simp [Hash.Algorithm.name]
      exact hlarge (hname c hmem)
    have hoctets : octets name = name.toList.length := by
      rw [← FileTree.octets_ofList hascii, String.ofList_toList]
    simp only [List.map_cons, List.map_nil, List.sum_cons, List.sum_nil, List.length_singleton]
    omega

/-- The names of content take few octets. -/
theorem modest_contentNames (h : digest.Supported) :
    FileTree.Modest (contentNames digest) 149 := by
  have hlength := Cache.length_octets h
  obtain ⟨a, hname, hsize⟩ := h
  have hsixtyFour : a.size ≤ 64 := by
    cases a <;> decide
  have hdirectory : FileTree.Modest [Cache.contentDirectory] 11 := ⟨by decide, by decide⟩
  have hshards : FileTree.Modest (Cache.shards digest.hex) 131 := by
    refine ⟨Cache.noNul_shards digest.octets, ?_⟩
    rw [Digest.hex, Cache.octets_shards (by omega)]
    simp only [List.sum_cons, List.sum_nil, Cache.shards, List.length_cons, List.length_nil]
    omega
  exact (hdirectory.append (modest_name hname)).append hshards

theorem modest_bucketNames (key : String) : FileTree.Modest (bucketNames key) 76 where
  noNul := Cache.noNul_bucketNames key
  short := by
    rw [Cache.octets_bucketNames]
    simp

/-- Nothing is in the way of content where no file is and no directory stands in its place. -/
theorem free_content {bound : Nat} (hstraight : ".." ∉ rest)
    (hmodest : FileTree.Modest (above ++ rest) bound) (hbound : bound ≤ 100) (data : Bytes)
    (hclear : tree.Clear start (rest ++ contentNames (defaultDigest data)).dropLast)
    (hplain : tree.get? (start ++ (rest ++ contentNames (defaultDigest data))) ≠
      some .directory) :
    tree.Free .workingDirectory above start (rest ++ contentNames (defaultDigest data)) := by
  have hall := hmodest.append (modest_contentNames (of_defaultDigest data).supported)
  rw [List.append_assoc] at hall
  refine hall.free (by unfold FileTree.nameLimit; omega) (by simp [contentNames]) ?_ hclear hplain
  intro hmem
  rcases List.mem_append.1 hmem with hmem | hmem
  · exact hstraight hmem
  · exact Cache.straight_contentNames (of_defaultDigest data).supported hmem

/-- Nothing is in the way of a bucket where no file is and no directory stands in its place. -/
theorem free_bucket {bound : Nat} (hstraight : ".." ∉ rest)
    (hmodest : FileTree.Modest (above ++ rest) bound) (hbound : bound ≤ 100) (key : String)
    (hclear : tree.Clear start (rest ++ bucketNames key).dropLast)
    (hplain : tree.get? (start ++ (rest ++ bucketNames key)) ≠ some .directory) :
    tree.Free .workingDirectory above start (rest ++ bucketNames key) := by
  have hall := hmodest.append (modest_bucketNames key)
  rw [List.append_assoc] at hall
  refine hall.free (by unfold FileTree.nameLimit; omega) (by simp [bucketNames]) ?_ hclear hplain
  intro hmem
  rcases List.mem_append.1 hmem with hmem | hmem
  · exact hstraight hmem
  · exact Cache.straight_bucketNames key hmem

/-! ## Empty trees -/

/-- A store below a relative path. -/
def relative (names : List String) : Store := ⟨⟨.workingDirectory, names⟩⟩

theorem get?_empty {place : Location} {node : FileTree.Node}
    (h : FileTree.empty.get? place = some node) : node = .directory ∧ place.length ≤ 1 := by
  cases place with
  | nil =>
      cases h
      exact ⟨rfl, by simp⟩
  | cons first more =>
      simp only [FileTree.get?, FileTree.empty, Ordered.get?] at h
      split at h
      · rename_i heq
        cases h
        rw [← heq]
        exact ⟨rfl, by simp⟩
      · cases h

theorem wellFormed_empty : FileTree.empty.WellFormed := by
  intro place name node h
  have hlength := (get?_empty h).2
  have hnil : place = [] := by
    rw [List.length_append, List.length_singleton] at hlength
    exact List.length_eq_zero_iff.1 (by omega)
  rw [hnil]
  rfl

theorem rooted_empty : FileTree.empty.Rooted ⟨.workingDirectory, []⟩ [""] := ⟨rfl, rfl⟩

theorem clear_empty (below : List String) : FileTree.empty.Clear [""] below := by
  intro before _ bytes hfile
  cases (get?_empty hfile).1

end LockPrefetch.Store
