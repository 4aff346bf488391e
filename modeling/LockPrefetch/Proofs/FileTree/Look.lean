import LockPrefetch.Proofs.FileTree.Walk

/-! # What is found

A settled path is read where it leads to (`readFile_eq_ok_iff`). A root that is a directory
(`Rooted`) stays one in growing trees, and what is missing below it is missed for no other
reason than that it is not there (`Rooted.lookUp_missing`). -/

set_option autoImplicit false

namespace LockPrefetch.FileTree

variable {tree after : FileTree} {root path : Path} {base place target : Location}
  {names : List String} {bytes : Bytes}

/-! ## Files -/

theorem lookUp_of_locate (hlocate : tree.locate path = .ok place) {node : Node}
    (hnode : tree.get? place = some node) : tree.lookUp path = .ok node := by
  simp [lookUp, hlocate, hnode, bind, Except.bind]

theorem lookUp_eq_ok_iff {node : Node} : tree.lookUp path = .ok node ↔
    ∃ place, tree.locate path = .ok place ∧ tree.get? place = some node := by
  constructor
  · intro h
    cases hlocate : tree.locate path with
    | error refusal => simp [lookUp, hlocate, bind, Except.bind] at h
    | ok place =>
        cases hnode : tree.get? place with
        | none => simp [lookUp, hlocate, hnode, bind, Except.bind] at h
        | some found =>
            rw [lookUp_of_locate hlocate hnode] at h
            cases h
            exact ⟨place, rfl, hnode⟩
  · rintro ⟨place, hlocate, hnode⟩
    exact lookUp_of_locate hlocate hnode

theorem lookUp_of_readFile (h : tree.readFile path = .ok bytes) :
    tree.lookUp path = .ok (.file bytes) := by
  unfold readFile at h
  split at h
  · rename_i content hlook
    cases h
    exact hlook
  · cases h
  · cases h

/-- **A file is read at the place that its path leads to.** -/
theorem readFile_eq_ok_iff (hleads : tree.Leads path place) :
    tree.readFile path = .ok bytes ↔
      tree.locate path = .ok place ∧ tree.get? place = some (.file bytes) := by
  constructor
  · intro h
    obtain ⟨target, hlocate, hnode⟩ := lookUp_eq_ok_iff.1 (lookUp_of_readFile h)
    obtain rfl := hleads.locate_eq hlocate
    exact ⟨hlocate, hnode⟩
  · rintro ⟨hlocate, hnode⟩
    rw [readFile, lookUp_of_locate hlocate hnode]

theorem readFile_noEntry_iff {fault : Fault} (h : tree.readFile path = .error fault) :
    fault.refusal = .noEntry ↔ tree.lookUp path = .error .noEntry := by
  unfold readFile at h
  split at h
  · cases h
  · rename_i hlook
    cases h
    simp [about, hlook]
  · rename_i refusal hlook
    cases h
    simp [about, hlook]

/-- Whether a path is there does not depend on what stands at other places. -/
theorem pathExists_eq_ok {present : Bool} (h : tree.pathExists path = .ok present) :
    present = true ↔ ∃ place node, tree.locate path = .ok place ∧ tree.get? place = some node := by
  unfold pathExists at h
  split at h
  · rename_i node hlook
    cases h
    obtain ⟨place, hlocate, hnode⟩ := lookUp_eq_ok_iff.1 hlook
    exact ⟨fun _ => ⟨place, node, hlocate, hnode⟩, fun _ => rfl⟩
  · cases h
  · rename_i refusal _ hlook
    cases h
    refine ⟨nofun, ?_⟩
    rintro ⟨place, node, hlocate, hnode⟩
    rw [lookUp_of_locate hlocate hnode] at hlook
    cases hlook

/-! ## What is missing -/

/-- What is missing is missed at a place where nothing stands, behind directories. -/
theorem missing_place {above below : List String} {start : Location}
    (hnames : path.names = above ++ below) (hstraight : ".." ∉ below)
    (hwalk : tree.walk (tree.anchorPlace path.anchor) above = .ok start)
    (hmissing : tree.lookUp path = .error .noEntry) :
    ∃ before, before <+: below ∧ tree.Passable start before ∧
      tree.get? (start ++ before) = none := by
  cases hlocate : tree.locate path with
  | ok target =>
      -- every directory is there, and only the end of the path is missing
      have hpassed := hlocate
      rw [(admissible_of_locate_ok hlocate).locate, hnames, walk_append, hwalk] at hpassed
      obtain ⟨rfl, hpassed, _⟩ := (walk_eq_ok_iff hstraight).1 hpassed
      refine ⟨below, List.prefix_refl _, hpassed, ?_⟩
      cases hnode : tree.get? (start ++ below) with
      | none => rfl
      | some node =>
          rw [lookUp_of_locate hlocate hnode] at hmissing
          cases hmissing
  | error refusal =>
      -- the walk stopped on its way; files and long names would give other reasons
      obtain rfl : refusal = .noEntry := by
        simpa [lookUp, hlocate, bind, Except.bind] using hmissing
      have hpath : Admissible path :=
        admissible_of_locate (by rw [hlocate]; nofun) (by rw [hlocate]; nofun)
      rw [hpath.locate, hnames, walk_append, hwalk] at hlocate
      rcases walk_refused hstraight hlocate with ⟨before, hbefore, _, hpassed, hwhy⟩ | ⟨hwhy, _⟩
      · rcases hwhy with ⟨hnone, _⟩ | ⟨_, hwhy⟩
        · exact ⟨before, hbefore, hpassed, hnone⟩
        · cases hwhy
      · cases hwhy

/-- **Where a settled path is missed below a root, no file stands in its way**, nor at its
end. -/
theorem WellFormed.no_file_on_the_way (h : tree.WellFormed) (hleads : tree.Leads root base)
    (hstraight : ".." ∉ names)
    (hmissing : tree.lookUp ⟨root.anchor, root.names ++ names⟩ = .error .noEntry)
    {before : List String} (hbefore : before <+: names) :
    tree.get? (base ++ before) ≠ some (.file bytes) := by
  intro hfile
  obtain ⟨above, below, start, hnames, hbelow, hwalk, rfl⟩ := hleads
  obtain ⟨stop, hstop, hpassed, hnone⟩ :=
    @missing_place tree ⟨root.anchor, root.names ++ names⟩ above (below ++ names) start
      (by simp [hnames]) (by simp [hbelow, hstraight]) hwalk hmissing
  rw [List.append_assoc] at hfile
  -- the file is passed before the gap, or lies behind it
  rcases List.prefix_or_prefix_of_prefix hstop
    ((List.prefix_append_right_inj below).2 hbefore) with ⟨rest, hrest⟩ | hfirst
  · rw [← hrest, ← List.append_assoc] at hfile
    by_cases hnil : rest = []
    · subst hnil
      rw [List.append_nil, hnone] at hfile
      cases hfile
    · rw [h.vacant_below (by rw [hnone]; nofun) rest hnil] at hfile
      cases hfile
  · by_cases hsame : below ++ before = stop
    · rw [hsame, hnone] at hfile
      cases hfile
    · rw [hpassed _ hfirst hsame] at hfile
      cases hfile

/-- Nothing stands where a settled path that is missed leads to. -/
theorem WellFormed.vacant_of_missing (h : tree.WellFormed) (hleads : tree.Leads path place)
    (hmissing : tree.lookUp path = .error .noEntry) : tree.get? place = none := by
  obtain ⟨above, below, start, hnames, hbelow, hwalk, rfl⟩ := hleads
  obtain ⟨stop, ⟨rest, rfl⟩, _, hnone⟩ := missing_place hnames hbelow hwalk hmissing
  rw [← List.append_assoc]
  by_cases hnil : rest = []
  · subst hnil
    rw [List.append_nil, hnone]
  · exact h.vacant_below (by rw [hnone]; nofun) rest hnil

/-- What stands behind names is passed through directories. -/
theorem WellFormed.passable (h : tree.WellFormed) {node : Node}
    (hnode : tree.get? (place ++ names) = some node) : tree.Passable place names := by
  rintro before ⟨rest, rfl⟩ hne
  have hrest : rest ≠ [] := by
    rintro rfl
    exact hne (List.append_nil before).symm
  by_contra hplace
  rw [← List.append_assoc, h.vacant_below hplace rest hrest] at hnode
  cases hnode

/-- Where a settled path leads behind a change, it led before, if something stood there: the
directories on the way have been there. -/
theorem WellFormed.locate_of_stands (h : tree.WellFormed) (hgrows : tree.Grows after)
    (hleads : tree.Leads path place) (hlocate : after.locate path = .ok target) {node : Node}
    (hnode : tree.get? target = some node) : tree.locate path = .ok target := by
  have hpath := admissible_of_locate_ok hlocate
  obtain rfl := (hleads.mono hgrows).locate_eq hlocate
  obtain ⟨above, below, start, hnames, hstraight, hwalk, rfl⟩ := hleads
  -- the names are as short as before
  rw [hpath.locate, hnames, walk_append, hgrows.anchorPlace, hgrows.walk hwalk] at hlocate
  rw [hpath.locate, hnames, walk_append, hwalk]
  exact (walk_eq_ok_iff hstraight).2
    ⟨rfl, h.passable hnode, ((walk_eq_ok_iff hstraight).1 hlocate).2.2⟩

/-- **What a settled path is found to lead to behind a change** was found there before, if it
stood there before. -/
theorem WellFormed.lookUp_iff (h : tree.WellFormed) (hgrows : tree.Grows after)
    (hleads : tree.Leads path place) (hsame : after.get? place = tree.get? place) (node : Node) :
    after.lookUp path = .ok node ↔ tree.lookUp path = .ok node := by
  constructor
  · intro hafter
    obtain ⟨target, hlocate, hnode⟩ := lookUp_eq_ok_iff.1 hafter
    obtain rfl := (hleads.mono hgrows).locate_eq hlocate
    rw [hsame] at hnode
    exact lookUp_of_locate (h.locate_of_stands hgrows hleads hlocate hnode) hnode
  · intro hbefore
    obtain ⟨target, hlocate, hnode⟩ := lookUp_eq_ok_iff.1 hbefore
    obtain rfl := hleads.locate_eq hlocate
    exact lookUp_of_locate (hgrows.locate hlocate) (by rw [hsame, hnode])

/-! ## Roots -/

/-- **A root that is a directory**, at the end of a walk. -/
structure Rooted (tree : FileTree) (root : Path) (base : Location) : Prop where
  walk : tree.walk (tree.anchorPlace root.anchor) root.names = .ok base
  directory : tree.get? base = some .directory

theorem Rooted.mono (h : tree.Rooted root base) (hgrows : tree.Grows after) :
    after.Rooted root base :=
  ⟨by rw [hgrows.anchorPlace]; exact hgrows.walk h.walk, hgrows.directory base h.directory⟩

/-- A root is a directory if something is located below it. -/
theorem rooted_of_locate (hleads : tree.Leads root base) (hnames : names ≠ [])
    (hlocate : tree.locate ⟨root.anchor, root.names ++ names⟩ = .ok target) :
    tree.Rooted root base := by
  rw [(admissible_of_locate_ok hlocate).locate, walk_append] at hlocate
  cases hwalk : tree.walk (tree.anchorPlace root.anchor) root.names with
  | error refusal => simp [hwalk, Except.bind] at hlocate
  | ok start =>
      have hbase : start = base := by
        obtain ⟨above, below, stop, hsplit, hbelow, habove, rfl⟩ := hleads
        rw [hsplit, walk_append, habove] at hwalk
        exact ((walk_eq_ok_iff hbelow).1 hwalk).1
      subst hbase
      refine ⟨hwalk, ?_⟩
      rw [hwalk] at hlocate
      obtain ⟨name, rest, rfl⟩ := List.exists_cons_of_ne_nil hnames
      cases hnode : tree.get? start with
      | none => simp [Except.bind, FileTree.walk, hnode] at hlocate
      | some node =>
          cases node with
          | file content => simp [Except.bind, FileTree.walk, hnode] at hlocate
          | directory => rfl

/-- Directories stand on the way to what is located below a root. -/
theorem directory_of_locate (hleads : tree.Leads root base) (hstraight : ".." ∉ names)
    (hlocate : tree.locate ⟨root.anchor, root.names ++ names⟩ = .ok target) {before : List String}
    (hbefore : before <+: names.dropLast) (hnames : names ≠ []) :
    tree.get? (base ++ before) = some .directory := by
  have hrooted := rooted_of_locate hleads hnames hlocate
  rw [(admissible_of_locate_ok hlocate).locate, walk_append, hrooted.walk] at hlocate
  obtain ⟨_, hpassed, _⟩ := (walk_eq_ok_iff hstraight).1 hlocate
  refine hpassed before (hbefore.trans (List.dropLast_prefix _)) ?_
  rintro rfl
  have hlength := hbefore.length_le
  have hpos := List.length_pos_iff.2 hnames
  rw [List.length_dropLast] at hlength
  omega

/-- **What is missing below a root is missed for that reason**, if it has short names and no
file stands in the way. -/
theorem Rooted.lookUp_missing (h : tree.Rooted root base) (hstraight : ".." ∉ names)
    (hshort : ∀ name ∈ names, octets name ≤ nameLimit)
    (hpath : Admissible ⟨root.anchor, root.names ++ names⟩)
    (hnone : tree.get? (base ++ names) = none)
    (hway : ∀ before, before <+: names → ∀ content,
      tree.get? (base ++ before) ≠ some (.file content)) :
    tree.lookUp ⟨root.anchor, root.names ++ names⟩ = .error .noEntry := by
  have hlocate := hpath.locate tree
  rw [walk_append, h.walk] at hlocate
  unfold lookUp
  rw [hlocate]
  cases hwalk : tree.walk base names with
  | ok target =>
      obtain ⟨rfl, _, _⟩ := (walk_eq_ok_iff hstraight).1 hwalk
      simp [bind, Except.bind, hwalk, hnone]
  | error refusal =>
      simp only [bind, Except.bind, hwalk]
      rcases walk_refused hstraight hwalk with
        ⟨before, hbefore, _, _, hwhy⟩ | ⟨_, name, hmem, hlong⟩
      · rcases hwhy with ⟨_, rfl⟩ | ⟨⟨content, hfile⟩, _⟩
        · rfl
        · exact absurd hfile (hway before hbefore content)
      · exact absurd (hshort name hmem) (Nat.not_le.2 hlong)

end LockPrefetch.FileTree
