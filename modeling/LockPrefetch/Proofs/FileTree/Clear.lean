import LockPrefetch.Proofs.FileTree.Change
import LockPrefetch.Proofs.FileTree.Look

/-! # Requests that are met

Making directories and changing a file is met where nothing is in the way (`Free`): the path is
admissible, its names are short, no file stands where a directory is needed and no directory
where the file goes (`run_changeBelow_free`). The first names of the path are there, or are
missing and can be made (`Reaches`); what the request leaves is told from the tree in which
they are there. -/

set_option autoImplicit false

namespace LockPrefetch.FileTree

variable {tree mid : FileTree} {anchor : Path.Anchor} {above below : List String}
  {start : Location}

/-- No file stands on the way along names from a place. -/
def Clear (tree : FileTree) (start : Location) (below : List String) : Prop :=
  ∀ before, before <+: below → ∀ bytes, tree.get? (start ++ before) ≠ some (.file bytes)

/-- Directories stand all along names from a place. -/
def Open (tree : FileTree) (start : Location) (below : List String) : Prop :=
  ∀ before, before <+: below → tree.get? (start ++ before) = some .directory

theorem Open.walk {name : String} (h : tree.Open start below) (hstraight : ".." ∉ below ++ [name])
    (hshort : ∀ n ∈ below ++ [name], octets n ≤ nameLimit) :
    tree.walk start (below ++ [name]) = .ok (start ++ (below ++ [name])) := by
  refine (walk_eq_ok_iff hstraight).2 ⟨rfl, ?_, hshort⟩
  intro before hbefore hne
  rcases List.prefix_concat_iff.1 hbefore with heq | hbefore
  · exact absurd heq hne
  · exact h before hbefore

theorem Open.locate {name : String} (h : tree.Open start below)
    (hwalk : tree.walk (tree.anchorPlace anchor) above = .ok start)
    (hstraight : ".." ∉ below ++ [name]) (hshort : ∀ n ∈ below ++ [name], octets n ≤ nameLimit)
    (hpath : Admissible ⟨anchor, above ++ (below ++ [name])⟩) :
    tree.locate ⟨anchor, above ++ (below ++ [name])⟩ = .ok (start ++ (below ++ [name])) := by
  rw [hpath.locate, walk_append, hwalk]
  exact h.walk hstraight hshort

/-- A directory at the end leaves the way open. -/
theorem Open.snoc {name : String} (h : tree.Open start below)
    (hlast : tree.get? (start ++ (below ++ [name])) = some .directory) :
    tree.Open start (below ++ [name]) := by
  intro before hbefore
  rcases List.prefix_concat_iff.1 hbefore with heq | hbefore
  · rw [heq, hlast]
  · exact h before hbefore

theorem Open.mono {after : FileTree} (h : tree.Open start below) (hgrows : tree.Grows after) :
    after.Open start below :=
  fun before hbefore => hgrows.directory _ (h before hbefore)

/-- A root that is a directory is made by leaving everything as it is. -/
theorem Rooted.ensureDirectory (h : tree.Rooted ⟨anchor, above⟩ start)
    (hpath : Admissible ⟨anchor, above⟩) :
    (FileTree.ensureDirectory ⟨anchor, above⟩).run tree = (.ok (), tree) := by
  have hlocate : tree.locate ⟨anchor, above⟩ = .ok start := by
    rw [hpath.locate]
    exact h.walk
  rcases run_ensureDirectory ⟨anchor, above⟩ tree with
    ⟨place, hplace, hnone, _⟩ | ⟨hrun, _⟩ | ⟨fault, _, hwhy⟩
  · rw [hlocate] at hplace
    cases hplace
    rw [h.directory] at hnone
    cases hnone
  · exact hrun
  · rcases hwhy with hplace | ⟨_, place, bytes, hplace, hfile⟩
    · rw [hlocate] at hplace
      cases hplace
    · rw [hlocate] at hplace
      cases hplace
      rw [h.directory] at hfile
      cases hfile

theorem Rooted.ensureChain (h : tree.Rooted ⟨anchor, above⟩ start)
    (hpath : Admissible ⟨anchor, above⟩) :
    (FileTree.ensureChain anchor above.reverse).run tree = (.ok (), tree) := by
  have hensure := h.ensureDirectory hpath
  cases hnames : above.reverse with
  | nil =>
      rw [List.reverse_eq_nil_iff.1 hnames] at hensure
      exact hensure
  | cons name more =>
      have hback : (name :: more).reverse = above := by rw [← hnames, List.reverse_reverse]
      simp only [FileTree.ensureChain, hback, hensure]

/-- Making a directory below an open way is met, if no file stands there. -/
theorem Open.ensureDirectory {name : String} (h : tree.Open start below)
    (hwalk : tree.walk (tree.anchorPlace anchor) above = .ok start)
    (hstraight : ".." ∉ below ++ [name]) (hshort : ∀ n ∈ below ++ [name], octets n ≤ nameLimit)
    (hpath : Admissible ⟨anchor, above ++ (below ++ [name])⟩)
    (hfree : ∀ bytes, tree.get? (start ++ (below ++ [name])) ≠ some (.file bytes)) :
    ∃ after, (FileTree.ensureDirectory ⟨anchor, above ++ (below ++ [name])⟩).run tree =
        (.ok (), after) ∧
      tree.Paved after (start ++ (below ++ [name])) ∧ after.Open start (below ++ [name]) := by
  have hlocate := h.locate hwalk hstraight hshort hpath
  rcases run_ensureDirectory ⟨anchor, above ++ (below ++ [name])⟩ tree with
    ⟨place, hplace, hnone, hrun⟩ | ⟨hrun, hlook⟩ | ⟨fault, _, hwhy⟩
  · rw [hlocate] at hplace
    cases hplace
    refine ⟨_, hrun, paved_set hnone, (h.mono (paved_set hnone).grows).snoc ?_⟩
    have hne : start ++ (below ++ [name]) ≠ [] := by simp
    rw [get?_set _ hne, if_pos rfl]
  · obtain ⟨place, hplace, hdir⟩ := lookUp_eq_ok_iff.1 hlook
    rw [hlocate] at hplace
    cases hplace
    exact ⟨tree, hrun, Paved.refl _ _, h.snoc hdir⟩
  · rcases hwhy with hplace | ⟨_, place, bytes, hplace, hfile⟩
    · rw [hlocate] at hplace
      cases hplace
    · rw [hlocate] at hplace
      cases hplace
      exact absurd hfile (hfree bytes)

/-- Changing a file behind an open way is met, if no directory stands there. -/
theorem Open.changeFile {name : String} (h : tree.Open start below)
    (hwalk : tree.walk (tree.anchorPlace anchor) above = .ok start)
    (hstraight : ".." ∉ below ++ [name]) (hshort : ∀ n ∈ below ++ [name], octets n ≤ nameLimit)
    (hpath : Admissible ⟨anchor, above ++ (below ++ [name])⟩)
    (hplain : tree.get? (start ++ (below ++ [name])) ≠ some .directory) (change : Bytes → Bytes) :
    (FileTree.changeFile ⟨anchor, above ++ (below ++ [name])⟩ change).run tree =
      (.ok (), tree.set (start ++ (below ++ [name]))
        (.file (change (tree.content (start ++ (below ++ [name])))))) := by
  have hlocate := h.locate hwalk hstraight hshort hpath
  rcases run_changeFile ⟨anchor, above ++ (below ++ [name])⟩ change tree with
    ⟨place, hplace, _, hrun⟩ | ⟨fault, _, hplace | ⟨place, hplace, hdir⟩⟩
  · rw [hlocate] at hplace
    cases hplace
    exact hrun
  · rw [hlocate] at hplace
    cases hplace
  · rw [hlocate] at hplace
    cases hplace
    exact absurd hdir hplain

/-- What is located below a root is behind directories. -/
theorem Rooted.open_of_locate {name : String} {place : Location}
    (h : tree.Rooted ⟨anchor, above⟩ start) (hstraight : ".." ∉ below ++ [name])
    (hlocate : tree.locate ⟨anchor, above ++ (below ++ [name])⟩ = .ok place) :
    place = start ++ (below ++ [name]) ∧ tree.Open start below := by
  rw [(admissible_of_locate_ok hlocate).locate, walk_append, h.walk] at hlocate
  obtain ⟨rfl, hpassed, _⟩ := (walk_eq_ok_iff hstraight).1 hlocate
  refine ⟨rfl, fun before hbefore => hpassed before (hbefore.trans (List.prefix_append _ _)) ?_⟩
  rintro rfl
  have := hbefore.length_le
  rw [List.length_append, List.length_singleton] at this
  omega

/-- Where the way below a root is clear, a request is refused only because a directory is
missing. -/
theorem Rooted.refusal_of_clear {refusal : Refusal} (h : tree.Rooted ⟨anchor, above⟩ start)
    (hstraight : ".." ∉ below) (hshort : ∀ name ∈ below, octets name ≤ nameLimit)
    (hpath : Admissible ⟨anchor, above ++ below⟩) (hclear : tree.Clear start below)
    (hlocate : tree.locate ⟨anchor, above ++ below⟩ = .error refusal) : refusal = .noEntry := by
  rw [hpath.locate, walk_append, h.walk] at hlocate
  rcases walk_refused hstraight hlocate with
    ⟨before, hbefore, _, _, ⟨_, hwhy⟩ | ⟨⟨bytes, hfile⟩, _⟩⟩ | ⟨_, name, hmem, hlong⟩
  · exact hwhy
  · exact absurd hfile (hclear before hbefore bytes)
  · exact absurd (hshort name hmem) (Nat.not_le.2 hlong)

/-- **The first names of a path are there**, or are missing and can be made, which leaves
another tree. -/
structure Reaches (tree mid : FileTree) (anchor : Path.Anchor) (above : List String)
    (start : Location) : Prop where
  make : (ensureChain anchor above.reverse).run tree = (.ok (), mid)
  rooted : mid.Rooted ⟨anchor, above⟩ start
  first : mid = tree ∨ tree.walk (tree.anchorPlace anchor) above = .error .noEntry

theorem Rooted.reaches (h : tree.Rooted ⟨anchor, above⟩ start)
    (hpath : Admissible ⟨anchor, above⟩) : tree.Reaches tree anchor above start :=
  ⟨h.ensureChain hpath, h, Or.inl rfl⟩

/-- Making a directory at once: it is met, or refused because a directory is missing. -/
theorem Reaches.ensureDirectory {name : String} (h : tree.Reaches mid anchor above start)
    (hstraight : ".." ∉ below ++ [name]) (hshort : ∀ n ∈ below ++ [name], octets n ≤ nameLimit)
    (hpath : Admissible ⟨anchor, above ++ (below ++ [name])⟩)
    (hclear : mid.Clear start (below ++ [name])) :
    (∃ after, (FileTree.ensureDirectory ⟨anchor, above ++ (below ++ [name])⟩).run tree =
        (.ok (), after) ∧
      mid.Paved after (start ++ (below ++ [name])) ∧ after.Open start (below ++ [name])) ∨
    ∃ fault, (FileTree.ensureDirectory ⟨anchor, above ++ (below ++ [name])⟩).run tree =
        (.error fault, tree) ∧ fault.refusal = .noEntry := by
  obtain ⟨_, hrooted, rfl | hmissing⟩ := h
  · -- the first names are there
    rcases run_ensureDirectory ⟨anchor, above ++ (below ++ [name])⟩ mid with
      ⟨place, hlocate, hnone, hrun⟩ | ⟨hrun, hlook⟩ | ⟨fault, hrun, hlocate | ⟨_, _, bytes, hwhy⟩⟩
    · obtain ⟨rfl, hopen⟩ := hrooted.open_of_locate hstraight hlocate
      have hpaved := paved_set hnone
      refine Or.inl ⟨_, hrun, hpaved, (hopen.mono hpaved.grows).snoc ?_⟩
      rw [get?_set _ (by simp), if_pos rfl]
    · obtain ⟨place, hlocate, hdir⟩ := lookUp_eq_ok_iff.1 hlook
      obtain ⟨rfl, hopen⟩ := hrooted.open_of_locate hstraight hlocate
      exact Or.inl ⟨_, hrun, Paved.refl _ _, hopen.snoc hdir⟩
    · exact Or.inr ⟨fault, hrun, hrooted.refusal_of_clear hstraight hshort hpath hclear hlocate⟩
    · obtain ⟨hlocate, hfile⟩ := hwhy
      obtain ⟨rfl, _⟩ := hrooted.open_of_locate hstraight hlocate
      exact absurd hfile (hclear _ (List.prefix_refl _) bytes)
  · -- they are missing, and so is everything below them
    have hlate : tree.locate ⟨anchor, above ++ (below ++ [name])⟩ = .error .noEntry := by
      rw [hpath.locate, walk_append, hmissing]
      rfl
    obtain ⟨fault, hrun, hrefusal⟩ := ensureDirectory_missing hlate
    exact Or.inr ⟨fault, hrun, hrefusal⟩

/-- **Making directories is met where no file is in the way.** -/
theorem run_ensureChain_clear (hreach : tree.Reaches mid anchor above start)
    (hstraight : ".." ∉ below) (hshort : ∀ name ∈ below, octets name ≤ nameLimit)
    (hpath : Admissible ⟨anchor, above ++ below⟩) (hclear : mid.Clear start below) :
    ∃ after, (ensureChain anchor (above ++ below).reverse).run tree = (.ok (), after) ∧
      mid.Paved after (start ++ below) ∧ after.Open start below := by
  -- from the end, as the chain goes back along the names
  induction below using List.reverseRecOn with
  | nil =>
      rw [List.append_nil]
      refine ⟨mid, hreach.make, Paved.refl _ _, ?_⟩
      intro before hbefore
      rw [List.prefix_nil.1 hbefore, List.append_nil]
      exact hreach.rooted.directory
  | append_singleton below name ih =>
      have hnames : (name :: (above ++ below).reverse).reverse = above ++ (below ++ [name]) := by
        simp
      have hback : (above ++ (below ++ [name])).reverse = name :: (above ++ below).reverse := by
        simp
      rw [hback]
      simp only [ensureChain, hnames]
      rcases hreach.ensureDirectory hstraight hshort hpath hclear with
        ⟨after, hrun, hpaved, hopen⟩ | ⟨fault, hrun, hrefusal⟩
      · rw [hrun]
        exact ⟨after, rfl, hpaved, hopen⟩
      · have habove : Admissible ⟨anchor, above ++ below⟩ := by
          rw [← List.append_assoc] at hpath
          exact hpath.above
        obtain ⟨after, hchain, hpaved, hopen⟩ := ih (fun h => hstraight (by simp [h]))
          (fun n hn => hshort n (by simp [hn])) habove
          (fun before hbefore => hclear before (hbefore.trans (List.prefix_append _ _)))
        rw [hrun]
        simp only [hrefusal, if_true]
        rw [Action.run_bind_ok hchain]
        -- the directories above are there now, and the last name is tried once more
        have hfree : ∀ bytes, after.get? (start ++ (below ++ [name])) ≠ some (.file bytes) :=
          fun bytes hfile => hclear _ (List.prefix_refl _) bytes (hpaved.get?_of_file hfile)
        obtain ⟨last, hagain, hlast, hopen⟩ := hopen.ensureDirectory
          (hreach.rooted.mono hpaved.grows).walk hstraight hshort hpath hfree
        have hway : start ++ below <+: start ++ (below ++ [name]) := ⟨[name], by simp⟩
        exact ⟨last, hagain, (hpaved.mono hway).trans hlast, hopen⟩

/-- **Nothing is in the way** of a file below a place. -/
structure Free (tree : FileTree) (anchor : Path.Anchor) (above : List String) (start : Location)
    (below : List String) : Prop where
  nonempty : below ≠ []
  straight : ".." ∉ below
  short : ∀ n ∈ below, octets n ≤ nameLimit
  admissible : Admissible ⟨anchor, above ++ below⟩
  clear : tree.Clear start below.dropLast
  free : tree.get? (start ++ below) ≠ some .directory

/-- **Changing a file is met where nothing is in the way.** -/
theorem run_changeBelow_free (hreach : tree.Reaches mid anchor above start)
    (hfree : mid.Free anchor above start below) (change : Bytes → Bytes) :
    ∃ after, (changeBelow ⟨anchor, above ++ below⟩ change).run tree = (.ok (), after) ∧
      mid.Filed after (start ++ below) (change (mid.content (start ++ below))) ∧
      after.locate ⟨anchor, above ++ below⟩ = .ok (start ++ below) := by
  obtain ⟨hne, hstraight, hshort, hpath, hclear, hplain⟩ := hfree
  obtain ⟨front, name, rfl⟩ : ∃ front name, below = front ++ [name] :=
    ⟨_, _, (List.dropLast_concat_getLast hne).symm⟩
  rw [List.dropLast_concat] at hclear
  have habove : Admissible ⟨anchor, above ++ front⟩ := by
    rw [← List.append_assoc] at hpath
    exact hpath.above
  obtain ⟨made, hrun, hpaved, hopen⟩ := run_ensureChain_clear hreach
    (fun h => hstraight (by simp [h])) (fun n hn => hshort n (by simp [hn])) habove hclear
  have hwalk := (hreach.rooted.mono hpaved.grows).walk
  have hparent : ensureDirectories (Path.parent ⟨anchor, above ++ (front ++ [name])⟩) =
      ensureChain anchor (above ++ front).reverse := by
    rw [Path.parent, ensureDirectories, ← List.append_assoc, List.dropLast_concat]
  have hplace : start ++ (front ++ [name]) ≠ [] := by simp
  have hlast : start ++ front = (start ++ (front ++ [name])).dropLast := by
    rw [← List.append_assoc, List.dropLast_concat]
  rw [hlast] at hpaved
  have hview := hpaved.get?_place hplace
  have hnow : made.get? (start ++ (front ++ [name])) ≠ some .directory := by rwa [hview]
  have hchange := hopen.changeFile hwalk hstraight hshort hpath hnow change
  rw [content, hview, ← content] at hchange
  unfold changeBelow
  rw [hparent, Action.run_bind_ok hrun]
  exact ⟨_, hchange, hpaved.filed hplace hnow _,
    locate_set_file (hopen.locate hwalk hstraight hshort hpath) hplace hnow _⟩

/-! ## Modest names -/

/-- **Names that take few octets all together** and hold no NUL character. -/
structure Modest (names : List String) (bound : Nat) : Prop where
  noNul : (names.any fun name => name.toList.any (·.toNat == 0)) = false
  short : (names.map octets).sum + names.length ≤ bound

theorem Modest.append {xs ys : List String} {a b : Nat} (h : Modest xs a) (h' : Modest ys b) :
    Modest (xs ++ ys) (a + b) := by
  refine ⟨?_, ?_⟩
  · rw [List.any_append, h.noNul, h'.noNul]
    rfl
  · have := h.short
    have := h'.short
    rw [List.map_append, List.sum_append, List.length_append]
    omega

theorem octets_le_sum {names : List String} :
    ∀ name ∈ names, octets name ≤ (names.map octets).sum := by
  induction names with
  | nil => nofun
  | cons first rest ih =>
      intro name hname
      rw [List.map_cons, List.sum_cons]
      rcases List.mem_cons.1 hname with rfl | hname
      · omega
      · have := ih name hname
        omega

theorem Modest.octets_le {names : List String} {bound : Nat} (h : Modest names bound) :
    ∀ name ∈ names, octets name ≤ bound := by
  intro name hname
  have := octets_le_sum name hname
  have := h.short
  omega

/-- A relative path of modest names is admissible. -/
theorem Modest.admissible {names : List String} {bound : Nat} (h : Modest names bound)
    (hbound : bound ≤ pathLimit) (hne : names ≠ []) : Admissible ⟨.workingDirectory, names⟩ := by
  refine ⟨h.noNul, ?_⟩
  have hanchor : octets (Path.Anchor.text .workingDirectory) = 0 := by decide
  have := octets_intercalate_le names
  have := h.short
  rw [octets_text _ hne, hanchor]
  omega

/-- **Nothing is in the way of modest names** where no file is on their way and no directory
stands in their place. -/
theorem Modest.free {below : List String} {bound : Nat} (h : Modest (above ++ below) bound)
    (hbound : bound ≤ nameLimit) (hne : below ≠ []) (hstraight : ".." ∉ below)
    (hclear : tree.Clear start below.dropLast)
    (hplain : tree.get? (start ++ below) ≠ some .directory) :
    tree.Free .workingDirectory above start below where
  nonempty := hne
  straight := hstraight
  short := fun n hn => Nat.le_trans (h.octets_le n (List.mem_append_right _ hn)) hbound
  admissible := h.admissible (Nat.le_trans hbound (by decide)) (by simp [hne])
  clear := hclear
  free := hplain

end LockPrefetch.FileTree
