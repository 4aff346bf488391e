import LockPrefetch.Proofs.Cache.History

/-! # Files in their places

Below a root where nothing stood at first there are only files that the store has put there: each
content at the place of its own digest, and buckets at the places of keys (`Placed`). Every
operation keeps it so, however it ends (`Placed.run_action`, `Placed.afterAll`). Nothing is said
about the records in the buckets, so that the contents may be of any size. -/

set_option autoImplicit false

namespace LockPrefetch.Store

open FileTree (Action)
open Cache (contentNames bucketNames Leaf)

variable {store : Store} {tree after : FileTree} {base : Location} {names : List String}
  {digest : Digest} {key url token : String} {data bytes : Bytes} {declared : Option String}
  {present : Bool} {operations : List Operation}

/-! ## The invariant -/

/-- **A root where nothing stands**, but that it may be a directory. -/
structure Vacant (store : Store) (base : Location) (tree : FileTree) : Prop where
  leads : tree.Leads store.root base
  noFile : ∀ bytes, tree.get? base ≠ some (.file bytes)
  below : ∀ names, names ≠ [] → tree.get? (base ++ names) = none

/-- **Every file is in its place**, and no directory is in the place of a file. -/
structure Placed (store : Store) (base : Location) (tree : FileTree) : Prop where
  leads : tree.Leads store.root base
  plain : ∀ names, Leaf names → tree.get? (base ++ names) ≠ some .directory
  files : ∀ names bytes, tree.get? (base ++ names) = some (.file bytes) →
    (∃ digest : Digest, digest.Of bytes ∧ names = contentNames digest) ∨
      ∃ key, names = bucketNames key

/-- Nothing stands at the root of a fresh store. -/
theorem Fresh.vacant_root (h : store.Fresh base tree) : store.Vacant base tree where
  leads := h.leads
  noFile := by
    intro bytes hfile
    rw [h.vacant] at hfile
    cases hfile
  below := fun names _ => h.get?_eq_none names

theorem Vacant.placed (h : store.Vacant base tree) : store.Placed base tree where
  leads := h.leads
  plain := by
    intro names hleaf hdir
    rw [h.below names hleaf.ne_nil] at hdir
    cases hdir
  files := by
    intro names bytes hfile
    by_cases hnames : names = []
    · rw [hnames, List.append_nil] at hfile
      exact absurd hfile (h.noFile bytes)
    · rw [h.below names hnames] at hfile
      cases hfile

/-- A store that holds a ledger has its files in their places. -/
theorem Holds.placed {Offered : Deposit → Prop} {ledger : List Deposit}
    (h : store.Holds base Offered ledger tree) : store.Placed base tree where
  leads := h.leads
  plain := h.plain
  files := by
    intro names bytes hfile
    rcases h.files names bytes hfile with ⟨p, _, hnames, rfl⟩ | ⟨p, _, hnames, _⟩
    · exact Or.inl ⟨p.digest, p.of_data, hnames⟩
    · exact Or.inr ⟨p.key, hnames⟩

namespace Placed

/-- Every file is a leaf. -/
theorem leaf (h : store.Placed base tree)
    (hfile : tree.get? (base ++ names) = some (.file bytes)) : Leaf names := by
  rcases h.files names bytes hfile with ⟨digest, _, rfl⟩ | ⟨key, rfl⟩
  · exact .content digest
  · exact .bucket key

/-- Content has the digest of its place. -/
theorem of_content (h : store.Placed base tree)
    (hfile : tree.get? (base ++ contentNames digest) = some (.file bytes)) : digest.Of bytes := by
  rcases h.files _ bytes hfile with ⟨found, hof, hnames⟩ | ⟨key, hnames⟩
  · rwa [Cache.contentNames_inj.1 hnames]
  · exact absurd hnames (Cache.contentNames_ne_bucketNames digest key)

/-- No file stands on the way to a leaf. -/
theorem clear (h : store.Placed base tree) (hleaf : Leaf names) {before : List String}
    (hbefore : before <+: names.dropLast) : tree.get? (base ++ before) ≠ some (.file bytes) := by
  intro hfile
  refine (h.leaf hfile).not_on_way hleaf base ?_
  rw [List.dropLast_append_of_ne_nil hleaf.ne_nil]
  exact (List.prefix_append_right_inj base).2 hbefore

/-- Nor on the way to the root and on to a leaf, if none is on the way to the root. -/
theorem clear_root {rest : List String} {start : Location} (h : store.Placed (start ++ rest) tree)
    (hleaf : Leaf names) (hclear : tree.Clear start rest) :
    tree.Clear start (rest ++ names).dropLast := by
  intro before hbefore bytes hfile
  rw [List.dropLast_append_of_ne_nil hleaf.ne_nil] at hbefore
  rcases List.prefix_or_prefix_of_prefix hbefore (List.prefix_append rest names.dropLast) with
    hway | ⟨more, rfl⟩
  · exact hclear before hway bytes hfile
  · rw [← List.append_assoc] at hfile
    exact h.clear hleaf ((List.prefix_append_right_inj rest).1 hbefore) hfile

/-- **No file of a store is in the way of another one**, if none is in the way of the root. -/
theorem free {anchor : Path.Anchor} {above rest : List String} {start : Location}
    (h : store.Placed (start ++ rest) tree) (hleaf : Leaf names) (hclear : tree.Clear start rest)
    (hstraight : ".." ∉ rest ++ names)
    (hshort : ∀ name ∈ rest ++ names, FileTree.octets name ≤ FileTree.nameLimit)
    (hpath : FileTree.Admissible ⟨anchor, above ++ (rest ++ names)⟩) :
    tree.Free anchor above start (rest ++ names) where
  nonempty := by simp [hleaf.ne_nil]
  straight := hstraight
  short := hshort
  admissible := hpath
  clear := h.clear_root hleaf hclear
  free := by
    rw [← List.append_assoc]
    exact h.plain names hleaf

/-! ## What keeps it -/

/-- **Directories on the way to a leaf** are in nobody's place. -/
theorem pave (h : store.Placed base tree) (hleaf : Leaf names)
    (hpaved : tree.Paved after (base ++ names).dropLast) : store.Placed base after where
  leads := h.leads.mono hpaved.grows
  plain := plain_of_paved h.plain hleaf hpaved
  files := fun other found hfile => h.files other found (hpaved.get?_of_file hfile)

/-- **A file that is given content** is in its place, if it is a bucket or the content of its own
digest. -/
theorem file (h : store.Placed base tree) (hfiled : tree.Filed after (base ++ names) bytes)
    (hplace : (∃ digest : Digest, digest.Of bytes ∧ names = contentNames digest) ∨
      ∃ key, names = bucketNames key) : store.Placed base after where
  leads := h.leads.mono hfiled.grows
  plain := by
    rcases hplace with ⟨digest, _, rfl⟩ | ⟨key, rfl⟩
    · exact plain_of_filed h.plain (.content digest) hfiled
    · exact plain_of_filed h.plain (.bucket key) hfiled
  files := by
    intro other found hfile
    by_cases hnames : other = names
    · rw [hnames, hfiled.here] at hfile
      cases hfile
      rwa [hnames]
    · have hne : base ++ other ≠ base ++ names := fun heq => hnames (List.append_cancel_left heq)
      exact h.files other found (hfiled.get?_of_file hne hfile)

end Placed

/-- **A step that keeps the places**: directories stay, no content goes, every file is in its place
behind it, and outside these places there is no file that was not there before. -/
structure Orderly (store : Store) (base : Location) (tree after : FileTree) : Prop where
  placed : store.Placed base after
  grows : tree.Grows after
  keeps : store.Keeps tree after
  outside : ∀ place bytes, after.get? place = some (.file bytes) →
    tree.get? place = some (.file bytes) ∨ ∃ names, Leaf names ∧ place = base ++ names

namespace Orderly

theorem refl (h : store.Placed base tree) : store.Orderly base tree tree :=
  ⟨h, FileTree.Grows.refl tree, fun _ _ hheld => hheld, fun _ _ hfile => Or.inl hfile⟩

theorem trans {last : FileTree} (h : store.Orderly base tree after)
    (h' : store.Orderly base after last) : store.Orderly base tree last where
  placed := h'.placed
  grows := h.grows.trans h'.grows
  keeps := fun digest hd hheld => h'.keeps digest hd (h.keeps digest hd hheld)
  outside := by
    intro place bytes hfile
    rcases h'.outside place bytes hfile with hbefore | hleaf
    · exact h.outside place bytes hbefore
    · exact Or.inr hleaf

/-- The way to the root stays clear: every file of the store lies below the root. -/
theorem clear {rest : List String} {start : Location} (h : store.Orderly (start ++ rest) tree after)
    (hclear : tree.Clear start rest) : after.Clear start rest := by
  intro before hbefore bytes hfile
  rcases h.outside _ bytes hfile with hthere | ⟨names, hleaf, hplace⟩
  · exact hclear before hbefore bytes hthere
  · rw [List.append_assoc] at hplace
    have hlength := hbefore.length_le
    have hpos : 0 < names.length := List.length_pos_iff.2 hleaf.ne_nil
    rw [List.append_cancel_left hplace, List.length_append] at hlength
    omega

end Orderly

namespace Placed

theorem orderly_pave (h : store.Placed base tree) (hleaf : Leaf names)
    (hpaved : tree.Paved after (base ++ names).dropLast) : store.Orderly base tree after where
  placed := h.pave hleaf hpaved
  grows := hpaved.grows
  keeps := keeps_of_files h.leads hpaved.grows
    fun _ found hfile => ⟨found, hpaved.get?_eq_some hfile⟩
  outside := fun _ _ hfile => Or.inl (hpaved.get?_of_file hfile)

theorem orderly_file (h : store.Placed base tree)
    (hfiled : tree.Filed after (base ++ names) bytes)
    (hplace : (∃ digest : Digest, digest.Of bytes ∧ names = contentNames digest) ∨
      ∃ key, names = bucketNames key) : store.Orderly base tree after where
  placed := h.file hfiled hplace
  grows := hfiled.grows
  keeps := keeps_of_files h.leads hfiled.grows fun _ _ hfile => hfiled.file_stays hfile
  outside := by
    intro place found hfile
    by_cases hother : place = base ++ names
    · refine Or.inr ⟨names, ?_, hother⟩
      rcases hplace with ⟨digest, _, rfl⟩ | ⟨key, rfl⟩
      · exact .content digest
      · exact .bucket key
    · exact Or.inl (hfiled.get?_of_file hother hfile)

/-! ## Operations -/

/-- **The step behind the look** keeps the places, and if it is made, the content is held. -/
theorem run_layDown (h : store.Placed base tree) (hof : digest.Of data)
    (hlook : store.hasContent tree digest = .ok present) :
    ∃ result mid, (store.layDown digest data present).run tree = (result, mid) ∧
      store.Orderly base tree mid ∧ (result = .ok () → store.Held mid digest) := by
  cases present with
  | true =>
      exact ⟨_, tree, rfl, Orderly.refl h, fun _ =>
        held_of_seen h.leads hof.supported (h.plain _ (.content digest)) hlook⟩
  | false =>
      rw [layDown, if_neg (by simp)]
      rcases run_placeContent h.leads hof.supported data with
        ⟨failure, mid, hrun, hpaved⟩ | ⟨mid, hrun, hfiled, hlocate⟩
      · refine ⟨_, mid, hrun, h.orderly_pave (.content digest) hpaved, ?_⟩
        intro hmade
        cases hmade
      · have hmid := h.orderly_file hfiled (Or.inl ⟨digest, hof, rfl⟩)
        refine ⟨_, mid, hrun, hmid, ?_⟩
        intro _
        exact (held_iff hmid.placed.leads hof.supported).2 ⟨hlocate, data, hfiled.here⟩

/-- **Adding a record** keeps the places. -/
theorem run_appendRecord (h : store.Placed base tree) (key url : String) (digest : Digest)
    (size : Nat) :
    ∃ result after, (store.appendRecord key url digest size).run tree = (result, after) ∧
      store.Orderly base tree after := by
  rcases Store.run_appendRecord h.leads key url digest size with
    ⟨failure, after, hrun, hpaved⟩ | ⟨after, hrun, hfiled, _⟩
  · exact ⟨_, after, hrun, h.orderly_pave (.bucket key) hpaved⟩
  · exact ⟨_, after, hrun, h.orderly_file hfiled (Or.inr ⟨key, rfl⟩)⟩

/-- **A put** keeps the places, and what it returns is the token of content that is held. -/
theorem run_put (h : store.Placed base tree) (key url : String) (data : Bytes)
    (declared : Option String) :
    ∃ result after, (store.put key url data declared).run tree = (result, after) ∧
      store.Orderly base tree after ∧
      ∀ sri, result = .ok sri → ∃ digest, verify key url data declared = .ok digest ∧
        sri = digest.token ∧ store.Held after digest := by
  rw [Store.run_put]
  cases hverify : verify key url data declared with
  | error failure => exact ⟨_, tree, rfl, Orderly.refl h, nofun⟩
  | ok digest =>
      have hof := (verify_eq_ok_iff.1 hverify).1
      cases hlook : store.hasContent tree digest with
      | error failure => exact ⟨.error failure, tree, by simp only [hlook], Orderly.refl h, nofun⟩
      | ok present =>
          obtain ⟨result, mid, hlay, hmid, hheld⟩ := h.run_layDown hof hlook
          simp only [hlook, hlay]
          cases result with
          | error failure => exact ⟨_, mid, rfl, hmid, nofun⟩
          | ok _ =>
              obtain ⟨last, after, hadd, hafter⟩ :=
                hmid.placed.run_appendRecord key url digest data.length
              simp only [hadd]
              have hall := hmid.trans hafter
              cases last with
              | error failure => exact ⟨_, after, rfl, hall, nofun⟩
              | ok _ =>
                  refine ⟨_, after, rfl, hall, fun sri hsri => ⟨digest, rfl, ?_, ?_⟩⟩
                  · exact (Except.ok.inj hsri).symm
                  · exact hafter.keeps digest hof.supported (hheld rfl)

/-- **An operation** keeps the places. -/
theorem run_action (h : store.Placed base tree) (operation : Operation) :
    store.Orderly base tree ((operation.action store).run tree).2 := by
  cases operation with
  | put p =>
      obtain ⟨key, url, data, declared⟩ := p
      obtain ⟨result, after, hrun, hafter, _⟩ := h.run_put key url data declared
      cases result with
      | error failure => rwa [Operation.run_put_error hrun]
      | ok sri => rwa [Operation.run_put_ok hrun]
  -- the others only look
  | get key => exact Orderly.refl h
  | entries key => exact Orderly.refl h
  | contains token => exact Orderly.refl h
  | read token => exact Orderly.refl h
  | reopen => exact Orderly.refl h

/-- **Whatever a store is asked for, every file stays in its place.** -/
theorem afterAll (h : store.Placed base tree) (operations : List Operation) :
    store.Orderly base tree (store.afterAll operations tree) := by
  induction operations generalizing tree with
  | nil => exact Orderly.refl h
  | cons operation rest ih =>
      have hfirst := h.run_action operation
      exact hfirst.trans (ih hfirst.placed)

end Placed

end LockPrefetch.Store
