import LockPrefetch.Proofs.Cache.Placement

/-! # Stores that take every put

Below a relative root of modest names a store gets in nobody's way: its files stand only where
contents and buckets go, and its directories only elsewhere. So every put whose content is
verified is met if nothing is in the way of the root (`Holds.run_put_met`), and that is so once
the store has taken a put (`Holds.run_put_again`). -/

set_option autoImplicit false

namespace LockPrefetch

namespace FileTree

variable {tree : FileTree} {anchor : Path.Anchor} {above below : List String} {start : Location}

/-- Where nothing is in the way, what is not found is missing. -/
theorem Free.lookUp (h : tree.Free anchor above start below)
    (hrooted : tree.Rooted ⟨anchor, above⟩ start) :
    (∃ node, tree.lookUp ⟨anchor, above ++ below⟩ = .ok node) ∨
      tree.lookUp ⟨anchor, above ++ below⟩ = .error .noEntry := by
  have hlocate := h.admissible.locate tree
  rw [walk_append, hrooted.walk] at hlocate
  cases hwalk : tree.walk start below with
  | ok place =>
      have hplace : tree.locate ⟨anchor, above ++ below⟩ = .ok place := hlocate.trans hwalk
      cases hnode : tree.get? place with
      | some node => exact Or.inl ⟨node, lookUp_of_locate hplace hnode⟩
      | none => exact Or.inr (by simp [FileTree.lookUp, hplace, hnode, bind, Except.bind])
  | error refusal =>
      have hrefused : tree.locate ⟨anchor, above ++ below⟩ = .error refusal := hlocate.trans hwalk
      right
      rcases walk_refused h.straight hwalk with
        ⟨before, hbefore, hne, _, ⟨_, rfl⟩ | ⟨⟨bytes, hfile⟩, _⟩⟩ | ⟨_, name, hmem, hlong⟩
      · simp [FileTree.lookUp, hrefused, bind, Except.bind]
      · -- a file on the way, though not at the end, would be in the way
        refine absurd hfile (h.clear before ?_ bytes)
        obtain ⟨front, name, rfl⟩ : ∃ front name, below = front ++ [name] :=
          ⟨_, _, (List.dropLast_concat_getLast h.nonempty).symm⟩
        rw [List.dropLast_concat]
        exact (List.prefix_concat_iff.1 hbefore).resolve_left hne
      · exact absurd (h.short name hmem) (Nat.not_le.2 hlong)

end FileTree

namespace Store

open Cache (contentNames bucketNames Leaf)

variable {store : Store} {tree : FileTree} {above rest names : List String} {start base : Location}
  {digest digest' : Digest} {key url : String} {data : Bytes} {declared : Option String}
  {ledger : List Deposit} {Offered : Deposit → Prop} {p : Deposit} {bound : Nat}

/-! ## Puts with nothing in the way -/

theorem hasContent_free (hroot : store.root.names = above ++ rest) (hd : digest.Supported)
    (hrooted : tree.Rooted ⟨store.root.anchor, above⟩ start)
    (hfree : tree.Free store.root.anchor above start (rest ++ contentNames digest)) :
    ∃ present, store.hasContent tree digest = .ok present := by
  have hlook := hfree.lookUp hrooted
  rw [← contentPath_append hroot hd] at hlook
  rcases hlook with ⟨node, hfound⟩ | hmissing
  · exact ⟨true, hasContent_of_found hfound⟩
  · exact ⟨false, hasContent_of_missing hmissing⟩

/-- **A put is met where nothing is in the way**, whether its content is there or not. -/
theorem run_put_clear (hroot : store.root.names = above ++ rest)
    (hrooted : tree.Rooted ⟨store.root.anchor, above⟩ start)
    (hverify : verify key url data declared = .ok digest)
    (hcontent : tree.Free store.root.anchor above start (rest ++ contentNames digest))
    (hbucket : tree.Free store.root.anchor above start (rest ++ bucketNames key)) :
    ∃ after, (store.put key url data declared).run tree = (.ok digest.token, after) := by
  have hreach := hrooted.reaches hbucket.admissible.above
  obtain ⟨present, hpresent⟩ :=
    hasContent_free hroot (verify_eq_ok_iff.1 hverify).1.supported hrooted hcontent
  cases present with
  | false =>
      obtain ⟨_, after, hrun, _⟩ := run_put_free hroot hreach hverify hpresent hcontent hbucket
      exact ⟨after, hrun⟩
  | true =>
      obtain ⟨after, hadd, _⟩ := run_appendRecord_free hroot hreach hbucket url digest data.length
      refine ⟨after, ?_⟩
      rw [run_put]
      simp only [hverify, hpresent, layDown, if_true, FileTree.Action.run_pure, hadd]

/-! ## Stores that hold a ledger -/

/-- No file of a store is in the way of another one. -/
theorem Holds.free_leaf (h : store.Holds (start ++ rest) Offered ledger tree) (hleaf : Leaf names)
    (hclear : tree.Clear start rest) (hmodest : FileTree.Modest (above ++ (rest ++ names)) bound)
    (hbound : bound ≤ FileTree.nameLimit) (hstraight : ".." ∉ rest ++ names) :
    tree.Free .workingDirectory above start (rest ++ names) := by
  have hnames : rest ++ names ≠ [] := by simp [hleaf.ne_nil]
  refine h.placed.free hleaf hclear hstraight (fun name hname => ?_)
    (hmodest.admissible (Nat.le_trans hbound (by decide)) (by simp [hnames]))
  exact Nat.le_trans (hmodest.octets_le name (List.mem_append_right _ hname)) hbound

/-- **A store below modest names takes every put** whose content is verified, if no file is in
the way of its root. -/
theorem Holds.run_put_met (h : (relative rest).Holds (tree.workingDirectory ++ rest) Offered ledger
      tree) (hdirectory : tree.get? tree.workingDirectory = some .directory)
    (hclear : tree.Clear tree.workingDirectory rest) (hstraight : ".." ∉ rest)
    (hmodest : FileTree.Modest rest bound) (hbound : bound ≤ 100)
    (hverify : verify key url data declared = .ok digest) :
    ∃ after, ((relative rest).put key url data declared).run tree = (.ok digest.token, after) := by
  have hd := (verify_eq_ok_iff.1 hverify).1.supported
  have hrooted : tree.Rooted ⟨(relative rest).root.anchor, []⟩ tree.workingDirectory :=
    ⟨rfl, hdirectory⟩
  have hlimit : bound + 149 ≤ FileTree.nameLimit := by
    unfold FileTree.nameLimit
    omega
  refine run_put_clear (show (relative rest).root.names = [] ++ rest from rfl) hrooted hverify ?_ ?_
  · refine h.free_leaf (.content digest) hclear (hmodest.append (modest_contentNames hd)) hlimit ?_
    rw [List.mem_append]
    rintro (hmem | hmem)
    · exact hstraight hmem
    · exact Cache.straight_contentNames hd hmem
  · refine h.free_leaf (.bucket key) hclear (hmodest.append (modest_bucketNames key)) (by omega) ?_
    rw [List.mem_append]
    rintro (hmem | hmem)
    · exact hstraight hmem
    · exact Cache.straight_bucketNames key hmem

/-- Once there is a record, the root is where its names say, behind directories. -/
theorem Holds.open_root (h : (relative rest).Holds base Offered ledger tree) (hp : p ∈ ledger)
    (hstraight : ".." ∉ rest) :
    base = tree.workingDirectory ++ rest ∧ tree.Open tree.workingDirectory rest := by
  have hstraight' : ".." ∉ rest ++ bucketNames p.key := by
    rw [List.mem_append]
    rintro (hmem | hmem)
    · exact hstraight hmem
    · exact Cache.straight_bucketNames p.key hmem
  have hhere : tree.Leads ⟨.workingDirectory, []⟩ tree.workingDirectory :=
    ⟨[], [], tree.workingDirectory, rfl, List.not_mem_nil, rfl, (List.append_nil _).symm⟩
  have hlocate := (h.bucket_file hp).1
  rw [bucketPath_eq] at hlocate
  refine ⟨?_, fun before hbefore => ?_⟩
  · have hplace := (hhere.join hstraight').locate_eq hlocate
    rw [← List.append_assoc] at hplace
    exact List.append_cancel_right hplace
  · refine @FileTree.directory_of_locate tree ⟨.workingDirectory, []⟩ tree.workingDirectory _
      (rest ++ bucketNames p.key) hhere hstraight' hlocate before ?_ (by simp [bucketNames])
    rw [List.dropLast_append_of_ne_nil (Cache.bucketNames_ne_nil p.key)]
    exact hbefore.trans (List.prefix_append _ _)

/-- **A store that has taken a put takes every other one** whose content is verified. -/
theorem Holds.run_put_again (h : (relative rest).Holds base Offered ledger tree) (hp : p ∈ ledger)
    (hstraight : ".." ∉ rest) (hmodest : FileTree.Modest rest bound) (hbound : bound ≤ 100)
    (hverify : verify key url data declared = .ok digest) :
    ∃ after, ((relative rest).put key url data declared).run tree = (.ok digest.token, after) := by
  obtain ⟨rfl, hopen⟩ := h.open_root hp hstraight
  refine h.run_put_met ?_ ?_ hstraight hmodest hbound hverify
  · simpa using hopen [] List.nil_prefix
  · intro before hbefore bytes hfile
    rw [hopen before hbefore] at hfile
    cases hfile

end Store

end LockPrefetch
