import LockPrefetch.Proofs.FileTree.Walk

/-! # What requests leave

Making directories leaves everything that is there as it is and adds directories on the way to
a place (`Paved`). Changing a file below directories that are made for it leaves the file with
its new content, and all else as making directories does (`Filed`). The main statement is
`run_changeBelow`: one of the two is left, whether the request is met or refused. -/

set_option autoImplicit false

namespace LockPrefetch.FileTree

variable {tree after last : FileTree} {place other : Location} {path : Path}

/-- The content of the file at a place; nothing if there is none. -/
def content (tree : FileTree) (place : Location) : Bytes :=
  match tree.get? place with
  | some (.file bytes) => bytes
  | _ => []

theorem content_of_get? {bytes : Bytes} (h : tree.get? place = some (.file bytes)) :
    tree.content place = bytes := by
  rw [content, h]

/-- Where the same file stands, or none, there is the same content. -/
theorem content_congr (h : ∀ bytes, after.get? place = some (.file bytes) ↔
    tree.get? place = some (.file bytes)) : after.content place = tree.content place := by
  cases hnode : tree.get? place with
  | some node =>
      cases node with
      | file bytes => rw [content_of_get? hnode, content_of_get? ((h bytes).2 hnode)]
      | directory =>
          unfold content
          split
          · rename_i bytes hfile
            rw [(h bytes).1 hfile] at hnode
            cases hnode
          · rw [hnode]
  | none =>
      unfold content
      split
      · rename_i bytes hfile
        rw [(h bytes).1 hfile] at hnode
        cases hnode
      · rw [hnode]

/-! ## Two kinds of change -/

/-- **Directories were made on the way to a place**, and nothing else has changed. -/
structure Paved (tree after : FileTree) (place : Location) : Prop where
  workingDirectory : after.workingDirectory = tree.workingDirectory
  view : ∀ other, after.get? other = tree.get? other ∨
    (tree.get? other = none ∧ after.get? other = some .directory ∧ other <+: place)

/-- **The file at a place was given content**, directories were made on the way to it, and
nothing else has changed. -/
structure Filed (tree after : FileTree) (place : Location) (bytes : Bytes) : Prop where
  workingDirectory : after.workingDirectory = tree.workingDirectory
  noDirectory : tree.get? place ≠ some .directory
  here : after.get? place = some (.file bytes)
  elsewhere : ∀ other, other ≠ place → after.get? other = tree.get? other ∨
    (tree.get? other = none ∧ after.get? other = some .directory ∧ other <+: place.dropLast)

theorem Paved.refl (tree : FileTree) (place : Location) : tree.Paved tree place :=
  ⟨rfl, fun _ => Or.inl rfl⟩

theorem Paved.trans (h : tree.Paved after place) (h' : after.Paved last place) :
    tree.Paved last place := by
  refine ⟨h'.workingDirectory.trans h.workingDirectory, fun other => ?_⟩
  rcases h'.view other with hsame | ⟨hnone, hdir, hway⟩
  · rw [hsame]
    exact h.view other
  · rcases h.view other with hsame | ⟨hnone', hdir', hway'⟩
    · exact Or.inr ⟨by rw [← hsame]; exact hnone, hdir, hway⟩
    · rw [hnone] at hdir'
      cases hdir'

theorem Paved.mono {further : Location} (h : tree.Paved after place) (hway : place <+: further) :
    tree.Paved after further := by
  refine ⟨h.workingDirectory, fun other => ?_⟩
  rcases h.view other with hsame | ⟨hnone, hdir, hother⟩
  · exact Or.inl hsame
  · exact Or.inr ⟨hnone, hdir, hother.trans hway⟩

theorem Paved.get?_eq_some {node : Node} (h : tree.Paved after place)
    (hnode : tree.get? other = some node) : after.get? other = some node := by
  rcases h.view other with hsame | ⟨hnone, _, _⟩
  · rw [hsame, hnode]
  · rw [hnone] at hnode
    cases hnode

theorem Paved.get?_of_file {bytes : Bytes} (h : tree.Paved after place)
    (hfile : after.get? other = some (.file bytes)) : tree.get? other = some (.file bytes) := by
  rcases h.view other with hsame | ⟨_, hdir, _⟩
  · rw [← hsame, hfile]
  · rw [hfile] at hdir
    cases hdir

theorem Paved.get?_of_directory (h : tree.Paved after place)
    (hdir : after.get? other = some .directory) :
    tree.get? other = some .directory ∨ other <+: place := by
  rcases h.view other with hsame | ⟨_, _, hway⟩
  · exact Or.inl (by rw [← hsame, hdir])
  · exact Or.inr hway

theorem Paved.grows (h : tree.Paved after place) : tree.Grows after :=
  ⟨h.workingDirectory, fun _ hdir => h.get?_eq_some hdir⟩

theorem Filed.grows {bytes : Bytes} (h : tree.Filed after place bytes) : tree.Grows after := by
  refine ⟨h.workingDirectory, fun other hdir => ?_⟩
  have hne : other ≠ place := by
    rintro rfl
    exact h.noDirectory hdir
  rcases h.elsewhere other hne with hsame | ⟨hnone, _, _⟩
  · rw [hsame, hdir]
  · rw [hnone] at hdir
    cases hdir

theorem Filed.get?_eq_some {bytes : Bytes} {node : Node} (h : tree.Filed after place bytes)
    (hne : other ≠ place) (hnode : tree.get? other = some node) :
    after.get? other = some node := by
  rcases h.elsewhere other hne with hsame | ⟨hnone, _, _⟩
  · rw [hsame, hnode]
  · rw [hnone] at hnode
    cases hnode

theorem Filed.get?_of_file {bytes found : Bytes} (h : tree.Filed after place bytes)
    (hne : other ≠ place) (hfile : after.get? other = some (.file found)) :
    tree.get? other = some (.file found) := by
  rcases h.elsewhere other hne with hsame | ⟨_, hdir, _⟩
  · rw [← hsame, hfile]
  · rw [hfile] at hdir
    cases hdir

theorem Filed.get?_of_directory {bytes : Bytes} (h : tree.Filed after place bytes)
    (hdir : after.get? other = some .directory) :
    tree.get? other = some .directory ∨ other <+: place.dropLast := by
  have hne : other ≠ place := by
    rintro rfl
    rw [h.here] at hdir
    cases hdir
  rcases h.elsewhere other hne with hsame | ⟨_, _, hway⟩
  · exact Or.inl (by rw [← hsame, hdir])
  · exact Or.inr hway

theorem Filed.file_stays {bytes found : Bytes} (h : tree.Filed after place bytes)
    (hfile : tree.get? other = some (.file found)) :
    ∃ kept, after.get? other = some (.file kept) := by
  by_cases hother : other = place
  · exact ⟨bytes, hother ▸ h.here⟩
  · exact ⟨found, h.get?_eq_some hother hfile⟩

/-- A file that is set behind made directories. -/
theorem Paved.filed (h : tree.Paved after place.dropLast) (hplace : place ≠ [])
    (hfree : after.get? place ≠ some .directory) (bytes : Bytes) :
    tree.Filed (after.set place (.file bytes)) place bytes := by
  refine ⟨h.workingDirectory, ?_, ?_, fun other hne => ?_⟩
  · intro hdir
    exact hfree (h.get?_eq_some hdir)
  · rw [get?_set _ hplace, if_pos rfl]
  · rw [get?_set _ hplace, if_neg (Ne.symm hne)]
    exact h.view other

/-- Directories on the way to a place leave the place itself as it was. -/
theorem Paved.get?_place (h : tree.Paved after place.dropLast) (hplace : place ≠ []) :
    after.get? place = tree.get? place := by
  rcases h.view place with hsame | ⟨_, _, hway⟩
  · exact hsame
  · have hlength := hway.length_le
    have hpos : 0 < place.length := List.length_pos_iff.2 hplace
    rw [List.length_dropLast] at hlength
    omega

/-- A path that leads to a file, or to where one can be, leads there once it is set. -/
theorem locate_set_file (hlocate : tree.locate path = .ok place) (hplace : place ≠ [])
    (hfree : tree.get? place ≠ some .directory) (bytes : Bytes) :
    (tree.set place (.file bytes)).locate path = .ok place :=
  ((Paved.refl tree _).filed hplace hfree bytes).grows.locate hlocate

/-! ## Making directories -/

theorem paved_set (hplace : tree.get? place = none) :
    tree.Paved (tree.set place .directory) place := by
  refine ⟨rfl, fun other => ?_⟩
  have hne : place ≠ [] := by
    rintro rfl
    cases hplace
  rw [get?_set _ hne]
  by_cases hother : place = other
  · subst hother
    exact Or.inr ⟨hplace, if_pos rfl, List.prefix_refl _⟩
  · exact Or.inl (if_neg hother)

/-- A directory is made where the path is located and nothing stands, or the request is refused
and the tree left alone. -/
theorem run_makeDirectory (path : Path) (tree : FileTree) :
    (∃ place, tree.locate path = .ok place ∧ tree.get? place = none ∧
      (makeDirectory path).run tree = (.ok (), tree.set place .directory)) ∨
    ∃ fault, (makeDirectory path).run tree = (.error fault, tree) ∧
      (tree.locate path = .error fault.refusal ∨
        (fault.refusal = .fileExists ∧ ∃ place node, tree.locate path = .ok place ∧
          tree.get? place = some node)) := by
  unfold makeDirectory
  cases hlocate : tree.locate path with
  | error refusal => exact Or.inr ⟨about path refusal, by simp [hlocate], Or.inl rfl⟩
  | ok place =>
      cases hnode : tree.get? place with
      | none => exact Or.inl ⟨place, rfl, hnode, by simp [hlocate, hnode]⟩
      | some node =>
          exact Or.inr ⟨about path .fileExists, by simp [hlocate, hnode],
            Or.inr ⟨rfl, place, node, rfl, hnode⟩⟩

/-- A directory is made, or is there already, or the request is refused because the path is not
located or leads to a file. -/
theorem run_ensureDirectory (path : Path) (tree : FileTree) :
    (∃ place, tree.locate path = .ok place ∧ tree.get? place = none ∧
      (ensureDirectory path).run tree = (.ok (), tree.set place .directory)) ∨
    ((ensureDirectory path).run tree = (.ok (), tree) ∧ tree.lookUp path = .ok .directory) ∨
    ∃ fault, (ensureDirectory path).run tree = (.error fault, tree) ∧
      (tree.locate path = .error fault.refusal ∨
        (fault.refusal ≠ .noEntry ∧ ∃ place bytes, tree.locate path = .ok place ∧
          tree.get? place = some (.file bytes))) := by
  rcases run_makeDirectory path tree with ⟨place, hlocate, hnone, hrun⟩ | ⟨fault, hrun, hwhy⟩
  · exact Or.inl ⟨place, hlocate, hnone, by simp [ensureDirectory, hrun]⟩
  · right
    simp only [ensureDirectory, hrun]
    rcases hwhy with hlocate | ⟨hexists, place, node, hlocate, hnode⟩
    · -- the path is not located, so that the second look finds nothing either
      right
      have hlook : tree.lookUp path = .error fault.refusal := by
        simp [lookUp, hlocate, bind, Except.bind]
      split
      · exact ⟨fault, rfl, Or.inl hlocate⟩
      · unfold isDirectory
        rw [hlook]
        by_cases hlong : fault.refusal = .nameTooLong
        · refine ⟨about path .nameTooLong, by rw [hlong], Or.inl ?_⟩
          rw [hlocate, hlong]
          rfl
        · refine ⟨fault, ?_, Or.inl hlocate⟩
          simp
    · rw [hexists, if_neg (by simp)]
      have hlook : tree.lookUp path = .ok node := by
        simp [lookUp, hlocate, hnode, bind, Except.bind]
      unfold isDirectory
      rw [hlook]
      cases node with
      | directory => exact Or.inl ⟨rfl, rfl⟩
      | file bytes =>
          exact Or.inr ⟨fault, rfl, Or.inr ⟨by rw [hexists]; nofun, place, bytes, hlocate, hnode⟩⟩

/-- Below what is missing no directory is made. -/
theorem ensureDirectory_missing (h : tree.locate path = .error .noEntry) :
    ∃ fault, (ensureDirectory path).run tree = (.error fault, tree) ∧
      fault.refusal = .noEntry := by
  rcases run_ensureDirectory path tree with
    ⟨place, hlocate, _⟩ | ⟨_, hlook⟩ | ⟨fault, hrun, hlocate | ⟨_, place, _, hlocate, _⟩⟩
  · rw [h] at hlocate
    cases hlocate
  · simp [lookUp, h, bind, Except.bind] at hlook
  · rw [h] at hlocate
    exact ⟨fault, hrun, (Except.error.inj hlocate).symm⟩
  · rw [h] at hlocate
    cases hlocate

/-- Where a directory was made, the path leads to it. -/
theorem lookUp_set_directory (hlocate : tree.locate path = .ok place)
    (hnone : tree.get? place = none) :
    (tree.set place .directory).lookUp path = .ok .directory := by
  have hne : place ≠ [] := by
    rintro rfl
    cases hnone
  have hafter := (paved_set hnone).grows.locate hlocate
  simp [lookUp, hafter, get?_set _ hne, bind, Except.bind]

/-- Making a directory adds it where the path leads, if it leads anywhere; refused, it leaves the
tree alone. -/
theorem paved_ensureDirectory (hplace : ∀ found, tree.locate path = .ok found → found = place) :
    ∃ result after, (ensureDirectory path).run tree = (result, after) ∧ tree.Paved after place ∧
      (result = .ok () → after.lookUp path = .ok .directory) ∧
      ∀ fault, result = .error fault → after = tree := by
  rcases run_ensureDirectory path tree with
    ⟨found, hlocate, hnone, hrun⟩ | ⟨hrun, hlook⟩ | ⟨fault, hrun, _⟩
  · obtain rfl := hplace found hlocate
    exact ⟨_, _, hrun, paved_set hnone, fun _ => lookUp_set_directory hlocate hnone, nofun⟩
  · exact ⟨_, _, hrun, Paved.refl _ _, fun _ => hlook, nofun⟩
  · exact ⟨_, _, hrun, Paved.refl _ _, nofun, fun _ _ => rfl⟩

/-- Where the names can be walked, a chain goes no further back than to the last of them: no
entry is missing above it. -/
theorem run_ensureChain_of_walk {anchor : Path.Anchor} {above : List String} {start : Location}
    (hwalk : tree.walk (tree.anchorPlace anchor) above = .ok start) :
    (ensureChain anchor above.reverse).run tree = (ensureDirectory ⟨anchor, above⟩).run tree := by
  have hfound : tree.locate ⟨anchor, above⟩ ≠ .error .noEntry := by
    intro hmissing
    have hpath : Admissible ⟨anchor, above⟩ :=
      admissible_of_locate (by rw [hmissing]; nofun) (by rw [hmissing]; nofun)
    rw [hpath.locate, hwalk] at hmissing
    cases hmissing
  cases hnames : above.reverse with
  | nil => rw [ensureChain, List.reverse_eq_nil_iff.1 hnames]
  | cons name more =>
      have hback : (name :: more).reverse = above := by rw [← hnames, List.reverse_reverse]
      simp only [ensureChain, hback]
      rcases run_ensureDirectory ⟨anchor, above⟩ tree with
        ⟨place, _, _, hrun⟩ | ⟨hrun, _⟩ | ⟨fault, hrun, hwhy⟩
      · rw [hrun]
      · rw [hrun]
      · have hrefusal : fault.refusal ≠ .noEntry := by
          intro hrefusal
          rcases hwhy with hmissing | ⟨hother, _⟩
          · exact hfound (hrefusal ▸ hmissing)
          · exact hother hrefusal
        rw [hrun]
        simp [hrefusal]

/-- **Making a chain of directories** on a settled path adds directories on the way to the place
that it leads to, also if it is refused halfway. -/
theorem run_ensureChain (anchor : Path.Anchor) (above below : List String) {start : Location}
    (hstraight : ".." ∉ below) (hwalk : tree.walk (tree.anchorPlace anchor) above = .ok start) :
    ∃ result after, (ensureChain anchor (above ++ below).reverse).run tree = (result, after) ∧
      tree.Paved after (start ++ below) ∧
      (result = .ok () → after.lookUp ⟨anchor, above ++ below⟩ = .ok .directory) := by
  -- the names behind the last `..`, from the end, as the chain goes back along them
  induction below using List.reverseRecOn with
  | nil =>
      rw [List.append_nil, List.append_nil, run_ensureChain_of_walk hwalk]
      have hplace : ∀ found, tree.locate ⟨anchor, above⟩ = .ok found → found = start := by
        intro found hlocate
        rw [(admissible_of_locate_ok hlocate).locate, hwalk] at hlocate
        exact (Except.ok.inj hlocate).symm
      obtain ⟨result, after, hrun, hpaved, hlook, _⟩ := paved_ensureDirectory hplace
      exact ⟨result, after, hrun, hpaved, hlook⟩
  | append_singleton below name ih =>
      have hbelow : ".." ∉ below := fun h => hstraight (by simp [h])
      obtain ⟨above?, mid, habove, hpaved, _⟩ := ih hbelow
      have hleads : tree.Leads ⟨anchor, above ++ (below ++ [name])⟩ (start ++ (below ++ [name])) :=
        ⟨above, below ++ [name], start, rfl, hstraight, hwalk, rfl⟩
      have hback : (above ++ (below ++ [name])).reverse = name :: (above ++ below).reverse := by
        simp
      have hnames : (name :: (above ++ below).reverse).reverse = above ++ (below ++ [name]) := by
        simp
      have hway : start ++ below <+: start ++ (below ++ [name]) :=
        ⟨[name], by simp⟩
      rw [hback]
      simp only [ensureChain, hnames]
      obtain ⟨first, after, hfirst, hafter, hlook, hsame⟩ :=
        paved_ensureDirectory fun _ hlocate => hleads.locate_eq hlocate
      rw [hfirst]
      cases first with
      | ok _ => exact ⟨_, after, rfl, hafter, hlook⟩
      | error fault =>
          obtain rfl := hsame fault rfl
          by_cases hrefusal : fault.refusal = .noEntry
          · simp only [hrefusal, if_true]
            cases above? with
            | error worse =>
                rw [Action.run_bind_error habove]
                exact ⟨_, _, rfl, hpaved.mono hway, nofun⟩
            | ok _ =>
                -- the directory above is there now, and the last name is tried once more
                rw [Action.run_bind_ok habove]
                obtain ⟨second, last, hsecond, hlast, hlook, _⟩ :=
                  paved_ensureDirectory fun _ hlocate =>
                    (hleads.mono hpaved.grows).locate_eq hlocate
                exact ⟨second, last, hsecond, (hpaved.mono hway).trans hlast, hlook⟩
          · simp only [hrefusal, if_false]
            exact ⟨_, _, rfl, Paved.refl _ _, nofun⟩

theorem run_ensureDirectories (hleads : tree.Leads path place) :
    ∃ result after, (ensureDirectories path).run tree = (result, after) ∧
      tree.Paved after place ∧ (result = .ok () → after.lookUp path = .ok .directory) := by
  obtain ⟨above, below, start, hnames, hstraight, hwalk, rfl⟩ := hleads
  obtain ⟨result, after, hrun, hpaved, hresult⟩ :=
    run_ensureChain path.anchor above below hstraight hwalk
  refine ⟨result, after, ?_, hpaved, ?_⟩
  · rw [ensureDirectories, hnames]
    exact hrun
  · rw [← hnames] at hresult
    exact hresult

/-! ## Changing files -/

/-- A file is changed where the path is located and no directory stands, or the request is
refused. -/
theorem run_changeFile (path : Path) (change : Bytes → Bytes) (tree : FileTree) :
    (∃ place, tree.locate path = .ok place ∧ tree.get? place ≠ some .directory ∧
      (changeFile path change).run tree =
        (.ok (), tree.set place (.file (change (tree.content place))))) ∨
    ∃ fault, (changeFile path change).run tree = (.error fault, tree) ∧
      (tree.locate path = .error fault.refusal ∨
        ∃ place, tree.locate path = .ok place ∧ tree.get? place = some .directory) := by
  unfold changeFile content
  cases hlocate : tree.locate path with
  | error refusal => exact Or.inr ⟨about path refusal, by simp [hlocate], Or.inl rfl⟩
  | ok place =>
      cases hnode : tree.get? place with
      | none => exact Or.inl ⟨place, rfl, by simp [hnode], by simp [hlocate, hnode]⟩
      | some node =>
          cases node with
          | directory =>
              exact Or.inr ⟨about path .isADirectory, by simp [hlocate, hnode],
                Or.inr ⟨place, rfl, hnode⟩⟩
          | file bytes => exact Or.inl ⟨place, rfl, by simp [hnode], by simp [hlocate, hnode]⟩

/-- The request to change a file, making the directories above it. -/
def changeBelow (path : Path) (change : Bytes → Bytes) : Action Fault Unit := do
  ensureDirectories path.parent
  changeFile path change

/-- **Changing a file below a settled path** leaves the file changed where the names say, or is
refused and leaves at most directories on the way to it. -/
theorem run_changeBelow {root : Path} {base : Location} {names : List String}
    (hleads : tree.Leads root base) (hstraight : ".." ∉ names) (hnames : names ≠ [])
    (change : Bytes → Bytes) :
    (∃ fault after, (changeBelow ⟨root.anchor, root.names ++ names⟩ change).run tree =
        (.error fault, after) ∧ tree.Paved after (base ++ names).dropLast) ∨
    ∃ after, (changeBelow ⟨root.anchor, root.names ++ names⟩ change).run tree = (.ok (), after) ∧
      tree.Filed after (base ++ names) (change (tree.content (base ++ names))) ∧
      after.locate ⟨root.anchor, root.names ++ names⟩ = .ok (base ++ names) := by
  have hparent : tree.Leads (Path.parent ⟨root.anchor, root.names ++ names⟩)
      (base ++ names).dropLast := by
    rw [Path.parent, List.dropLast_append_of_ne_nil hnames, List.dropLast_append_of_ne_nil hnames]
    exact hleads.join fun h => hstraight (List.dropLast_subset _ h)
  have hplace : base ++ names ≠ [] := by simp [hnames]
  obtain ⟨result, mid, hmake, hpaved, _⟩ := run_ensureDirectories hparent
  unfold changeBelow
  cases result with
  | error fault => exact Or.inl ⟨fault, mid, Action.run_bind_error hmake _, hpaved⟩
  | ok _ =>
      rw [Action.run_bind_ok hmake]
      rcases run_changeFile ⟨root.anchor, root.names ++ names⟩ change mid with
        ⟨place, hlocate, hfree, hrun⟩ | ⟨fault, hrun, _⟩
      · obtain rfl := ((hleads.join hstraight).mono hpaved.grows).locate_eq hlocate
        have hsame : mid.content (base ++ names) = tree.content (base ++ names) := by
          rw [content, content, hpaved.get?_place hplace]
        rw [hsame] at hrun
        exact Or.inr ⟨_, hrun, hpaved.filed hplace hfree _,
          locate_set_file hlocate hplace hfree _⟩
      · exact Or.inl ⟨fault, mid, hrun, hpaved⟩

/-- A file that was given new content holds it, wherever its path leads. -/
theorem readFile_changeBelow {bytes : Bytes}
    (h : (changeBelow path fun _ => bytes).run tree = (.ok (), after)) :
    after.readFile path = .ok bytes := by
  unfold changeBelow at h
  rcases hmake : (ensureDirectories path.parent).run tree with ⟨result, mid⟩
  cases result with
  | error fault =>
      rw [Action.run_bind_error hmake] at h
      cases h
  | ok _ =>
      rw [Action.run_bind_ok hmake] at h
      rcases run_changeFile path (fun _ => bytes) mid with
        ⟨place, hlocate, hfree, hrun⟩ | ⟨fault, hrun, _⟩
      · rw [hrun] at h
        cases h
        have hplace : place ≠ [] := by
          rintro rfl
          exact hfree rfl
        simp [readFile, lookUp, locate_set_file hlocate hplace hfree, get?_set _ hplace, bind,
          Except.bind]
      · rw [hrun] at h
        cases h

end LockPrefetch.FileTree
