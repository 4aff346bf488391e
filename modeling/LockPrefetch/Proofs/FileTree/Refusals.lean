import LockPrefetch.Proofs.FileTree.Change

/-! # Refusals that come from no file system

A NUL character in a path is found before any file system is asked. It is the reason of a refusal
exactly if the path holds one (`lookUp_eq_nul_iff`), also where a request makes directories and
changes a file (`nul_of_changeBelow`, `run_changeBelow_nul`). -/

set_option autoImplicit false

namespace LockPrefetch

/-- **A path that holds a NUL character.** -/
def Path.HoldsNul (path : Path) : Prop :=
  (path.names.any fun name => name.toList.any (·.toNat == 0)) = true

namespace FileTree

variable {tree after : FileTree} {path : Path} {fault : Fault}

/-- Names that are passed on hold their NUL characters. -/
theorem holdsNul_append {anchor : Path.Anchor} {xs ys : List String} :
    Path.HoldsNul ⟨anchor, xs ++ ys⟩ ↔
      Path.HoldsNul ⟨anchor, xs⟩ ∨ Path.HoldsNul ⟨anchor, ys⟩ := by
  simp only [Path.HoldsNul, List.any_append, Bool.or_eq_true]

theorem holdsNul_of_parent (h : path.parent.HoldsNul) : path.HoldsNul := by
  unfold Path.HoldsNul Path.parent at *
  rw [List.any_eq_true] at *
  obtain ⟨name, hmem, hnul⟩ := h
  exact ⟨name, List.dropLast_subset _ hmem, hnul⟩

/-! ## Looking -/

/-- A walk is never refused for a NUL character. -/
theorem walk_ne_nul (names : List String) (place : Location) :
    tree.walk place names ≠ .error .nulCharacter := by
  induction names generalizing place with
  | nil => nofun
  | cons name rest ih =>
      unfold walk
      split
      · nofun
      · nofun
      · split
        · exact ih _
        · split
          · nofun
          · exact ih _

theorem locate_eq_nul_iff : tree.locate path = .error .nulCharacter ↔ path.HoldsNul := by
  unfold locate Path.HoldsNul
  split
  · rename_i hnul
    simp [hnul]
  · rename_i hnul
    refine ⟨fun h => ?_, fun h => absurd h hnul⟩
    split at h
    · cases h
    · split at h
      · exact absurd h (walk_ne_nul _ _)
      · exact absurd h (walk_ne_nul _ _)

theorem lookUp_eq_nul_iff : tree.lookUp path = .error .nulCharacter ↔ path.HoldsNul := by
  rw [← @locate_eq_nul_iff tree]
  unfold lookUp
  cases hlocate : tree.locate path with
  | error refusal => simp [bind, Except.bind]
  | ok place => cases hnode : tree.get? place <;> simp [hnode, bind, Except.bind]

/-- What is found there is a file, or a reason is given about the path. -/
theorem readFile_eq_error (h : tree.readFile path = .error fault) :
    fault = about path .isADirectory ∨
      ∃ refusal, tree.lookUp path = .error refusal ∧ fault = about path refusal := by
  unfold readFile at h
  split at h
  · cases h
  · cases h
    exact Or.inl rfl
  · rename_i refusal hlook
    cases h
    exact Or.inr ⟨refusal, hlook, rfl⟩

theorem nul_of_readFile (h : tree.readFile path = .error fault)
    (hnul : fault.refusal = .nulCharacter) : path.HoldsNul := by
  rcases readFile_eq_error h with rfl | ⟨refusal, hlook, rfl⟩
  · cases hnul
  · obtain rfl : refusal = .nulCharacter := hnul
    exact lookUp_eq_nul_iff.1 hlook

theorem readFile_nul (h : path.HoldsNul) :
    tree.readFile path = .error (about path .nulCharacter) := by
  rw [readFile, lookUp_eq_nul_iff.2 h]

/-! ## Making directories -/

theorem nul_of_makeDirectory (h : (makeDirectory path).run tree = (.error fault, after))
    (hnul : fault.refusal = .nulCharacter) : path.HoldsNul := by
  rcases run_makeDirectory path tree with ⟨place, _, _, hrun⟩ | ⟨found, hrun, hwhy⟩
  · rw [hrun] at h
    cases h
  · rw [hrun] at h
    cases h
    rcases hwhy with hlocate | ⟨hexists, _⟩
    · rw [hnul] at hlocate
      exact locate_eq_nul_iff.1 hlocate
    · rw [hnul] at hexists
      cases hexists

theorem nul_of_ensureDirectory (h : (ensureDirectory path).run tree = (.error fault, after))
    (hnul : fault.refusal = .nulCharacter) : path.HoldsNul := by
  rcases hmake : (makeDirectory path).run tree with ⟨made, mid⟩
  cases made with
  | ok _ => simp [ensureDirectory, hmake] at h
  | error first =>
      -- the refusal of the first request, or that of the look that comes behind it
      have hfirst := nul_of_makeDirectory hmake
      simp only [ensureDirectory, hmake] at h
      split at h
      · cases h
        exact hfirst hnul
      · split at h
        · cases h
        · cases h
          exact hfirst hnul
        · rename_i worse hlook
          cases h
          unfold isDirectory at hlook
          split at hlook <;> cases hlook
          cases hnul

theorem run_ensureDirectory_nul (h : path.HoldsNul) :
    (ensureDirectory path).run tree = (.error (about path .nulCharacter), tree) := by
  have hlocate : tree.locate path = .error .nulCharacter := locate_eq_nul_iff.2 h
  simp [ensureDirectory, makeDirectory, hlocate, about]

/-- **A chain of directories** is refused for a NUL character only if its path holds one. -/
theorem nul_of_ensureChain {anchor : Path.Anchor} {names : List String}
    (h : (ensureChain anchor names).run tree = (.error fault, after))
    (hnul : fault.refusal = .nulCharacter) : Path.HoldsNul ⟨anchor, names.reverse⟩ := by
  induction names generalizing tree after fault with
  | nil => exact nul_of_ensureDirectory h hnul
  | cons name above ih =>
      have hwhole : ∀ {tree after : FileTree} {fault : Fault},
          (ensureDirectory ⟨anchor, (name :: above).reverse⟩).run tree = (.error fault, after) →
            fault.refusal = .nulCharacter →
              Path.HoldsNul ⟨anchor, (name :: above).reverse⟩ := nul_of_ensureDirectory
      rcases hfirst : (ensureDirectory ⟨anchor, (name :: above).reverse⟩).run tree with ⟨made, mid⟩
      cases made with
      | ok _ =>
          simp only [ensureChain, hfirst] at h
          cases h
      | error first =>
          simp only [ensureChain, hfirst] at h
          split at h
          · -- the directories above come first, then the last name once more
            rcases hchain : (ensureChain anchor above).run mid with ⟨second, last⟩
            cases second with
            | error worse =>
                rw [Action.run_bind_error hchain] at h
                cases h
                have habove := ih hchain hnul
                rw [List.reverse_cons]
                exact holdsNul_append.2 (Or.inl habove)
            | ok _ =>
                rw [Action.run_bind_ok hchain] at h
                exact hwhole h hnul
          · cases h
            exact hwhole hfirst hnul

theorem run_ensureDirectories_nul (h : path.HoldsNul) :
    (ensureDirectories path).run tree = (.error (about path .nulCharacter), tree) := by
  unfold ensureDirectories
  cases hnames : path.names.reverse with
  | nil =>
      -- a path without names holds nothing
      rw [List.reverse_eq_nil_iff] at hnames
      simp [Path.HoldsNul, hnames] at h
  | cons name above =>
      have hpath : (⟨path.anchor, (name :: above).reverse⟩ : Path) = path := by
        rw [← hnames, List.reverse_reverse]
      simp only [ensureChain, hpath, run_ensureDirectory_nul h, about, reduceCtorEq, if_false]

/-! ## Changing files -/

theorem nul_of_changeFile {change : Bytes → Bytes}
    (h : (changeFile path change).run tree = (.error fault, after))
    (hnul : fault.refusal = .nulCharacter) : path.HoldsNul := by
  unfold changeFile at h
  cases hlocate : tree.locate path with
  | error refusal =>
      simp only [hlocate, Prod.mk.injEq, Except.error.injEq] at h
      obtain ⟨rfl, _⟩ := h
      obtain rfl : refusal = .nulCharacter := hnul
      exact locate_eq_nul_iff.1 hlocate
  | ok place =>
      simp only [hlocate] at h
      split at h
      · cases h
        cases hnul
      · cases h
      · cases h

/-- **Changing a file below made directories** is refused for a NUL character only if the path
holds one. -/
theorem nul_of_changeBelow {change : Bytes → Bytes}
    (h : (changeBelow path change).run tree = (.error fault, after))
    (hnul : fault.refusal = .nulCharacter) : path.HoldsNul := by
  unfold changeBelow at h
  rcases hmake : (ensureDirectories path.parent).run tree with ⟨made, mid⟩
  cases made with
  | error first =>
      rw [Action.run_bind_error hmake] at h
      cases h
      have hparent := nul_of_ensureChain hmake hnul
      rw [List.reverse_reverse] at hparent
      exact holdsNul_of_parent hparent
  | ok _ =>
      rw [Action.run_bind_ok hmake] at h
      exact nul_of_changeFile h hnul

theorem run_changeBelow_nul (h : path.parent.HoldsNul) (change : Bytes → Bytes) :
    (changeBelow path change).run tree = (.error (about path.parent .nulCharacter), tree) :=
  Action.run_bind_error (run_ensureDirectories_nul h) _

end FileTree

end LockPrefetch
