import LockPrefetch.Proofs.FileTree.Change

/-! # Changes that stay below a path

Where a path goes up with `..` from directories that are not there yet, making directories can
make them anywhere on its way, and what the path leads to is settled only behind that. Still,
directories are all that is added (`Widens`), and a file is changed nowhere but where the names
behind the path lead from where the path itself leads in the end (`run_changeBelow_anywhere`,
`Confined`).

Below a settled path the changes stay within the place that it leads to, and what stands beside
this place is left alone (`Within.beside`). -/

set_option autoImplicit false

namespace LockPrefetch.FileTree

variable {tree mid after : FileTree} {root path : Path} {place site : Location}
  {names : List String} {bytes : Bytes} {Allowed : List String → Prop}

/-! ## Directories anywhere -/

/-- **Directories were made**, and nothing else has changed. -/
structure Widens (tree after : FileTree) : Prop where
  workingDirectory : after.workingDirectory = tree.workingDirectory
  view : ∀ place, after.get? place = tree.get? place ∨
    (tree.get? place = none ∧ after.get? place = some .directory)

theorem Widens.refl (tree : FileTree) : tree.Widens tree := ⟨rfl, fun _ => Or.inl rfl⟩

theorem Widens.trans (h : tree.Widens mid) (h' : mid.Widens after) : tree.Widens after := by
  refine ⟨h'.workingDirectory.trans h.workingDirectory, fun place => ?_⟩
  rcases h'.view place with hsame | ⟨hnone, hdir⟩
  · rw [hsame]
    exact h.view place
  · rcases h.view place with hsame | ⟨_, hdir'⟩
    · exact Or.inr ⟨by rw [← hsame, hnone], hdir⟩
    · rw [hnone] at hdir'
      cases hdir'

theorem Widens.grows (h : tree.Widens after) : tree.Grows after := by
  refine ⟨h.workingDirectory, fun place hdir => ?_⟩
  rcases h.view place with hsame | ⟨hnone, _⟩
  · rw [hsame, hdir]
  · rw [hnone] at hdir
    cases hdir

theorem widens_ensureDirectory (path : Path) (tree : FileTree) :
    tree.Widens ((ensureDirectory path).run tree).2 := by
  rcases run_ensureDirectory path tree with ⟨place, _, hnone, hrun⟩ | ⟨hrun, _⟩ | ⟨_, hrun, _⟩
  · rw [hrun]
    refine ⟨rfl, fun other => ?_⟩
    rcases (paved_set hnone).view other with hsame | ⟨hvacant, hdir, _⟩
    · exact Or.inl hsame
    · exact Or.inr ⟨hvacant, hdir⟩
  · rw [hrun]
    exact Widens.refl tree
  · rw [hrun]
    exact Widens.refl tree

/-- **Making a chain of directories** makes directories and nothing else, wherever they lie. -/
theorem widens_ensureChain (anchor : Path.Anchor) (names : List String) (tree : FileTree) :
    tree.Widens ((ensureChain anchor names).run tree).2 := by
  induction names generalizing tree with
  | nil => exact widens_ensureDirectory _ tree
  | cons name above ih =>
      have hfirst := widens_ensureDirectory ⟨anchor, (name :: above).reverse⟩ tree
      simp only [ensureChain]
      rcases hrun : (ensureDirectory ⟨anchor, (name :: above).reverse⟩).run tree with ⟨first, after⟩
      rw [hrun] at hfirst
      cases first with
      | ok _ => exact hfirst
      | error fault =>
          simp only
          split
          · -- the directories above come first, then the last name once more
            have habove := ih after
            rcases hchain : (ensureChain anchor above).run after with ⟨second, last⟩
            rw [hchain] at habove
            cases second with
            | error worse =>
                rw [Action.run_bind_error hchain]
                exact hfirst.trans habove
            | ok _ =>
                rw [Action.run_bind_ok hchain]
                exact (hfirst.trans habove).trans (widens_ensureDirectory _ last)
          · exact hfirst

theorem widens_ensureDirectories (path : Path) (tree : FileTree) :
    tree.Widens ((ensureDirectories path).run tree).2 :=
  widens_ensureChain path.anchor path.names.reverse tree

/-- Files are as they were where directories were made. -/
theorem Widens.file_iff (h : tree.Widens after) :
    after.get? place = some (.file bytes) ↔ tree.get? place = some (.file bytes) := by
  rcases h.view place with hsame | ⟨hnone, hdir⟩
  · rw [hsame]
  · rw [hnone, hdir]
    exact ⟨nofun, nofun⟩

/-! ## A file anywhere -/

/-- **The file at a place was given content**, directories were made wherever they lie, and
nothing else has changed. -/
structure Wrote (tree after : FileTree) (place : Location) (bytes : Bytes) : Prop where
  workingDirectory : after.workingDirectory = tree.workingDirectory
  noDirectory : tree.get? place ≠ some .directory
  here : after.get? place = some (.file bytes)
  elsewhere : ∀ other, other ≠ place → after.get? other = tree.get? other ∨
    (tree.get? other = none ∧ after.get? other = some .directory)

/-- A file is set where directories were made before. -/
theorem Widens.wrote (h : tree.Widens mid) (hplace : place ≠ [])
    (hfree : mid.get? place ≠ some .directory) (bytes : Bytes) :
    tree.Wrote (mid.set place (.file bytes)) place bytes := by
  refine ⟨h.workingDirectory, ?_, ?_, fun other hne => ?_⟩
  · intro hdir
    exact hfree (h.grows.directory place hdir)
  · rw [get?_set _ hplace, if_pos rfl]
  · rw [get?_set _ hplace, if_neg (Ne.symm hne)]
    exact h.view other

namespace Wrote

variable {found : Bytes}

theorem grows (h : tree.Wrote after place bytes) : tree.Grows after := by
  refine ⟨h.workingDirectory, fun other hdir => ?_⟩
  have hne : other ≠ place := by
    rintro rfl
    exact h.noDirectory hdir
  rcases h.elsewhere other hne with hsame | ⟨hnone, _⟩
  · rw [hsame, hdir]
  · rw [hnone] at hdir
    cases hdir

/-- Other files are as they were. -/
theorem file_iff (h : tree.Wrote after place bytes) {other : Location} (hne : other ≠ place) :
    after.get? other = some (.file found) ↔ tree.get? other = some (.file found) := by
  rcases h.elsewhere other hne with hsame | ⟨hnone, hdir⟩
  · rw [hsame]
  · rw [hnone, hdir]
    exact ⟨nofun, nofun⟩

end Wrote

/-- What is located behind a path lies below what the path itself leads to. -/
theorem locate_below (hstraight : ".." ∉ names)
    (hlocate : tree.locate ⟨root.anchor, root.names ++ names⟩ = .ok place) :
    ∃ base, tree.locate root = .ok base ∧ place = base ++ names := by
  have hpath := admissible_of_locate_ok hlocate
  rw [hpath.locate, walk_append] at hlocate
  have hroot : Admissible root := hpath.above
  cases hwalk : tree.walk (tree.anchorPlace root.anchor) root.names with
  | error refusal => simp [hwalk, Except.bind] at hlocate
  | ok base =>
      rw [hwalk] at hlocate
      exact ⟨base, by rw [hroot.locate, hwalk], ((walk_eq_ok_iff hstraight).1 hlocate).1⟩

/-- **Changing a file behind any path** leaves the file changed where the names lead from where
the path leads in the end, or is refused and leaves directories. -/
theorem run_changeBelow_anywhere (hstraight : ".." ∉ names) (hnames : names ≠ [])
    (change : Bytes → Bytes) (tree : FileTree) :
    (∃ fault after, (changeBelow ⟨root.anchor, root.names ++ names⟩ change).run tree =
        (.error fault, after) ∧ tree.Widens after) ∨
    ∃ base after, (changeBelow ⟨root.anchor, root.names ++ names⟩ change).run tree =
        (.ok (), after) ∧ after.locate root = .ok base ∧
      after.locate ⟨root.anchor, root.names ++ names⟩ = .ok (base ++ names) ∧
      tree.Wrote after (base ++ names) (change (tree.content (base ++ names))) := by
  unfold changeBelow
  rcases hmake : (ensureDirectories (Path.parent ⟨root.anchor, root.names ++ names⟩)).run tree with
    ⟨result, mid⟩
  have hmid : tree.Widens mid := by
    have hwidens := widens_ensureDirectories (Path.parent ⟨root.anchor, root.names ++ names⟩) tree
    rwa [hmake] at hwidens
  cases result with
  | error fault => exact Or.inl ⟨fault, mid, Action.run_bind_error hmake _, hmid⟩
  | ok _ =>
      rw [Action.run_bind_ok hmake]
      rcases run_changeFile ⟨root.anchor, root.names ++ names⟩ change mid with
        ⟨place, hlocate, hfree, hrun⟩ | ⟨fault, hrun, _⟩
      · obtain ⟨base, hbase, rfl⟩ := locate_below hstraight hlocate
        have hplace : base ++ names ≠ [] := by simp [hnames]
        rw [content_congr fun _ => hmid.file_iff] at hrun
        have hgrows := ((Widens.refl mid).wrote hplace hfree
          (change (tree.content (base ++ names)))).grows
        exact Or.inr ⟨base, _, hrun, hgrows.locate hbase, hgrows.locate hlocate,
          hmid.wrote hplace hfree _⟩
      · exact Or.inl ⟨fault, mid, hrun, hmid⟩

/-! ## Files where they may be -/

/-- **Files were changed only below a path**: at names that are allowed, from where the path
leads in the end. Directories may have been made; all else is as it was. -/
structure Confined (Allowed : List String → Prop) (root : Path) (tree after : FileTree) :
    Prop where
  workingDirectory : after.workingDirectory = tree.workingDirectory
  view : ∀ place, after.get? place = tree.get? place ∨
    (tree.get? place = none ∧ after.get? place = some .directory) ∨
    (tree.get? place ≠ some .directory ∧ (∃ bytes, after.get? place = some (.file bytes)) ∧
      ∃ base names, after.locate root = .ok base ∧ Allowed names ∧ place = base ++ names)

theorem Widens.confined (h : tree.Widens after) (Allowed : List String → Prop) (root : Path) :
    Confined Allowed root tree after :=
  ⟨h.workingDirectory, fun place => (h.view place).imp_right Or.inl⟩

namespace Confined

theorem refl (Allowed : List String → Prop) (root : Path) (tree : FileTree) :
    Confined Allowed root tree tree :=
  (Widens.refl tree).confined Allowed root

theorem grows (h : Confined Allowed root tree after) : tree.Grows after := by
  refine ⟨h.workingDirectory, fun place hdir => ?_⟩
  rcases h.view place with hsame | ⟨hnone, _⟩ | ⟨hfree, _⟩
  · rw [hsame, hdir]
  · rw [hnone] at hdir
    cases hdir
  · exact absurd hdir hfree

/-- What is confined step by step is confined: the path leads on to where it led. -/
theorem trans (h : Confined Allowed root tree mid) (h' : Confined Allowed root mid after) :
    Confined Allowed root tree after := by
  refine ⟨h'.workingDirectory.trans h.workingDirectory, fun place => ?_⟩
  rcases h'.view place with hsame | ⟨hnone, hdir⟩ | ⟨hfree, hfile, hplace⟩
  · rw [hsame]
    rcases h.view place with hfirst | hfirst | ⟨hfree, hfile, base, names, hlocate, hrest⟩
    · exact Or.inl hfirst
    · exact Or.inr (Or.inl hfirst)
    · exact Or.inr (Or.inr ⟨hfree, hfile, base, names, h'.grows.locate hlocate, hrest⟩)
  · rcases h.view place with hfirst | ⟨_, hdir'⟩ | ⟨_, ⟨bytes, hfile⟩, _⟩
    · exact Or.inr (Or.inl ⟨by rw [← hfirst, hnone], hdir⟩)
    · rw [hnone] at hdir'
      cases hdir'
    · rw [hnone] at hfile
      cases hfile
  · exact Or.inr (Or.inr ⟨fun hdir => hfree (h.grows.directory place hdir), hfile, hplace⟩)

end Confined

/-- A file that was given content below where a path leads in the end is confined. -/
theorem Wrote.confined (h : tree.Wrote after (place ++ names) bytes)
    (hlocate : after.locate root = .ok place) (hallowed : Allowed names) :
    Confined Allowed root tree after := by
  refine ⟨h.workingDirectory, fun other => ?_⟩
  by_cases hother : other = place ++ names
  · subst hother
    exact Or.inr (Or.inr ⟨h.noDirectory, ⟨_, h.here⟩, place, names, hlocate, hallowed, rfl⟩)
  · exact (h.elsewhere other hother).imp_right Or.inl

/-- **Changing a file behind any path is confined**, whether it is made or refused. -/
theorem confined_changeBelow (hstraight : ".." ∉ names) (hnames : names ≠ [])
    (hallowed : Allowed names) (change : Bytes → Bytes) (tree : FileTree) :
    Confined Allowed root tree
      ((changeBelow ⟨root.anchor, root.names ++ names⟩ change).run tree).2 := by
  rcases run_changeBelow_anywhere hstraight hnames change tree with
    ⟨fault, after, hrun, hwidens⟩ | ⟨base, after, hrun, hlocate, _, hwrote⟩
  · rw [hrun]
    exact hwidens.confined Allowed root
  · rw [hrun]
    exact hwrote.confined hlocate hallowed

/-! ## Within a place -/

/-- **Only what lies within a place has changed**, but for directories that were made on the way
to it; directories have stayed. -/
structure Within (site : Location) (tree after : FileTree) : Prop where
  grows : tree.Grows after
  view : ∀ place, ¬ site <+: place → after.get? place = tree.get? place ∨
    (tree.get? place = none ∧ after.get? place = some .directory ∧ place <+: site)

/-- What is on the way to a place within a site, and not within the site, is on the way to the
site. -/
theorem on_way_of_not_within {rest : List String} (hout : ¬ site <+: place)
    (hway : place <+: site ++ rest) : place <+: site :=
  (List.prefix_or_prefix_of_prefix (List.prefix_append site rest) hway).resolve_left hout

theorem Paved.within (h : tree.Paved after (site ++ names)) : Within site tree after := by
  refine ⟨h.grows, fun place hout => ?_⟩
  rcases h.view place with hsame | ⟨hnone, hdir, hway⟩
  · exact Or.inl hsame
  · exact Or.inr ⟨hnone, hdir, on_way_of_not_within hout hway⟩

theorem Filed.within (h : tree.Filed after (site ++ names) bytes) :
    Within site tree after := by
  refine ⟨h.grows, fun place hout => ?_⟩
  have hne : place ≠ site ++ names := by
    rintro rfl
    exact hout (List.prefix_append site names)
  rcases h.elsewhere place hne with hsame | ⟨hnone, hdir, hway⟩
  · exact Or.inl hsame
  · exact Or.inr ⟨hnone, hdir, on_way_of_not_within hout (hway.trans (List.dropLast_prefix _))⟩

namespace Within

theorem refl (site : Location) (tree : FileTree) : Within site tree tree :=
  ⟨Grows.refl tree, fun _ _ => Or.inl rfl⟩

theorem trans (h : Within site tree mid) (h' : Within site mid after) :
    Within site tree after := by
  refine ⟨h.grows.trans h'.grows, fun place hout => ?_⟩
  rcases h'.view place hout with hsame | ⟨hnone, hdir, hway⟩
  · rw [hsame]
    exact h.view place hout
  · rcases h.view place hout with hsame | ⟨_, hdir', _⟩
    · exact Or.inr ⟨by rw [← hsame, hnone], hdir, hway⟩
    · rw [hnone] at hdir'
      cases hdir'

/-- **What stands beside the place**, neither within it nor on the way to it, is left alone. -/
theorem beside (h : Within site tree after) (hout : ¬ site <+: place) (hway : ¬ place <+: site) :
    after.get? place = tree.get? place :=
  (h.view place hout).resolve_right fun hmade => hway hmade.2.2

end Within

end LockPrefetch.FileTree
