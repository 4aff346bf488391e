import LockPrefetch.Encoding.Utf8.RoundTrip
import LockPrefetch.FileTree.Action
import Mathlib.Algebra.Ring.Nat
import Mathlib.Data.List.Induction

/-! # Where paths lead

A path that goes up with `..` leads to a place that depends on the tree. If each `..` goes up
from a directory that is there, that place is settled (`Leads`): it stays the same as long as
directories stay (`Leads.mono`), whatever else is made below them, and wherever the path is
found at all, it is found there (`Leads.locate_eq`).

A walk without `..` is described by what stands at the places that it passes
(`walk_eq_ok_iff`, `walk_refused`). -/

set_option autoImplicit false

namespace LockPrefetch.FileTree

variable {tree after : FileTree} {place target : Location} {names : List String} {path : Path}

/-! ## Well-formed trees -/

/-- **A well-formed tree**: whatever is listed lies in a directory. Every file system is of
this kind. -/
def WellFormed (tree : FileTree) : Prop :=
  ∀ (place : Location) (name : String) (node : Node),
    tree.get? (place ++ [name]) = some node → tree.get? place = some .directory

/-- A tree is well-formed if each place that is listed lies in a directory. -/
theorem wellFormed_of_listed
    (h : ∀ node ∈ tree.nodes, tree.get? node.1.dropLast = some .directory) : tree.WellFormed := by
  intro place name node hnode
  have hlisted : (place ++ [name], node) ∈ tree.nodes := by
    cases place with
    | nil => exact Ordered.mem_of_get? hnode
    | cons first rest => exact Ordered.mem_of_get? hnode
  simpa using h _ hlisted

/-- Nothing lies below a place where there is no directory. -/
theorem WellFormed.vacant_below (h : tree.WellFormed) (hplace : tree.get? place ≠ some .directory) :
    ∀ rest : Location, rest ≠ [] → tree.get? (place ++ rest) = none := by
  intro rest hrest
  -- from the end: the deepest name of `rest` would have to lie in a directory
  induction rest using List.reverseRecOn with
  | nil => exact absurd rfl hrest
  | append_singleton rest name ih =>
      cases hnode : tree.get? (place ++ (rest ++ [name])) with
      | none => rfl
      | some node =>
          exfalso
          rw [← List.append_assoc] at hnode
          have habove := h _ _ _ hnode
          by_cases hnil : rest = []
          · subst hnil
            exact hplace (by simpa using habove)
          · rw [ih hnil] at habove
            cases habove

/-! ## Walks -/

/-- Every place that a walk passes before its last name is a directory. -/
def Passable (tree : FileTree) (place : Location) (names : List String) : Prop :=
  ∀ before, before <+: names → before ≠ names → tree.get? (place ++ before) = some .directory

theorem passable_nil : tree.Passable place [] := by
  intro before hbefore hne
  exact absurd (List.prefix_nil.1 hbefore) hne

theorem passable_cons {name : String} :
    tree.Passable place (name :: names) ↔
      tree.get? place = some .directory ∧ tree.Passable (place ++ [name]) names := by
  constructor
  · intro h
    refine ⟨by simpa using h [] List.nil_prefix (by simp), ?_⟩
    intro before hbefore hne
    have := h (name :: before) (List.cons_prefix_cons.2 ⟨rfl, hbefore⟩) (by simpa using hne)
    simpa using this
  · rintro ⟨hplace, hrest⟩ before hbefore hne
    cases before with
    | nil => simpa using hplace
    | cons first before =>
        obtain ⟨rfl, hbehind⟩ := List.cons_prefix_cons.1 hbefore
        have := hrest before hbehind (by simpa using hne)
        simpa using this

/-- A walk can be stopped anywhere and taken up again. -/
theorem walk_append (xs ys : List String) :
    tree.walk place (xs ++ ys) = (tree.walk place xs).bind fun stop => tree.walk stop ys := by
  induction xs generalizing place with
  | nil => rfl
  | cons name rest ih =>
      simp only [List.cons_append, walk]
      split
      · rfl
      · rfl
      · split
        · exact ih
        · split
          · rfl
          · exact ih

/-- **A walk without `..` succeeds** exactly if it passes directories under names that are not
too long, and then it ends where its names say. -/
theorem walk_eq_ok_iff (h : ".." ∉ names) :
    tree.walk place names = .ok target ↔
      target = place ++ names ∧ tree.Passable place names ∧
        ∀ name ∈ names, octets name ≤ nameLimit := by
  induction names generalizing place with
  | nil =>
      simp only [walk, Except.ok.injEq, List.append_nil, List.not_mem_nil, false_implies,
        implies_true, and_true]
      exact ⟨fun e => ⟨e.symm, passable_nil⟩, fun e => e.1.symm⟩
  | cons name rest ih =>
      have hname : name ≠ ".." := fun e => h (by simp [e])
      have hrest : ".." ∉ rest := fun m => h (by simp [m])
      rw [passable_cons]
      simp only [walk, List.mem_cons, forall_eq_or_imp]
      cases hnode : tree.get? place with
      | none => simp
      | some node =>
          cases node with
          | file content => simp
          | directory =>
              simp only [hname, if_false, true_and]
              by_cases hlong : nameLimit < octets name
              · simp only [hlong, if_true, reduceCtorEq, false_iff]
                omega
              · rw [if_neg hlong, ih hrest]
                have : octets name ≤ nameLimit := by omega
                simp [this]

/-- **A walk without `..` is refused** at the first place that it would pass and that is no
directory, for the reason that stands there, or at a name that is too long. -/
theorem walk_refused {refusal : Refusal} (h : ".." ∉ names)
    (hwalk : tree.walk place names = .error refusal) :
    (∃ before, before <+: names ∧ before ≠ names ∧ tree.Passable place before ∧
      ((tree.get? (place ++ before) = none ∧ refusal = .noEntry) ∨
        ((∃ content, tree.get? (place ++ before) = some (.file content)) ∧
          refusal = .notADirectory))) ∨
    (refusal = .nameTooLong ∧ ∃ name ∈ names, nameLimit < octets name) := by
  induction names generalizing place with
  | nil => simp [walk] at hwalk
  | cons name rest ih =>
      have hname : name ≠ ".." := fun e => h (by simp [e])
      have hrest : ".." ∉ rest := fun m => h (by simp [m])
      simp only [walk] at hwalk
      cases hnode : tree.get? place with
      | none =>
          rw [hnode] at hwalk
          cases hwalk
          exact Or.inl ⟨[], List.nil_prefix, by simp, passable_nil,
            Or.inl ⟨by simpa using hnode, rfl⟩⟩
      | some node =>
          rw [hnode] at hwalk
          cases node with
          | file content =>
              cases hwalk
              exact Or.inl ⟨[], List.nil_prefix, by simp, passable_nil,
                Or.inr ⟨⟨content, by simpa using hnode⟩, rfl⟩⟩
          | directory =>
              simp only [hname, if_false] at hwalk
              by_cases hlong : nameLimit < octets name
              · rw [if_pos hlong] at hwalk
                cases hwalk
                exact Or.inr ⟨rfl, name, by simp, hlong⟩
              · rw [if_neg hlong] at hwalk
                rcases ih hrest hwalk with
                  ⟨before, hbefore, hne, hpassed, hwhy⟩ | ⟨hwhy, long, hmem, hlong⟩
                · exact Or.inl ⟨name :: before, List.cons_prefix_cons.2 ⟨rfl, hbefore⟩,
                    by simpa using hne, passable_cons.2 ⟨hnode, hpassed⟩, by simpa using hwhy⟩
                · exact Or.inr ⟨hwhy, long, by simp [hmem], hlong⟩

/-! ## Growing trees -/

/-- Directories stay. -/
structure Grows (tree after : FileTree) : Prop where
  workingDirectory : after.workingDirectory = tree.workingDirectory
  directory : ∀ place, tree.get? place = some .directory → after.get? place = some .directory

theorem Grows.refl (tree : FileTree) : tree.Grows tree := ⟨rfl, fun _ h => h⟩

theorem Grows.trans {last : FileTree} (h : tree.Grows after) (h' : after.Grows last) :
    tree.Grows last :=
  ⟨h'.workingDirectory.trans h.workingDirectory,
    fun place hdir => h'.directory place (h.directory place hdir)⟩

/-- What could be walked can still be walked. -/
theorem Grows.walk (h : tree.Grows after) (hwalk : tree.walk place names = .ok target) :
    after.walk place names = .ok target := by
  induction names generalizing place with
  | nil => exact hwalk
  | cons name rest ih =>
      simp only [FileTree.walk] at hwalk ⊢
      split at hwalk
      · cases hwalk
      · cases hwalk
      · rename_i hdir
        rw [h.directory place hdir]
        split at hwalk
        · rw [if_pos (by assumption)]
          exact ih hwalk
        · rw [if_neg (by assumption)]
          split at hwalk
          · cases hwalk
          · rw [if_neg (by assumption)]
            exact ih hwalk

/-! ## Lengths -/

theorem octets_ofList {text : List Char} (h : ∀ c ∈ text, c.toNat < 0x80) :
    octets (String.ofList text) = text.length := by
  rw [octets, String.toList_ofList, Encoding.Utf8.encode]
  induction text with
  | nil => rfl
  | cons c text ih =>
      have hone : c.utf8Size = 1 := by
        rw [Char.utf8Size_eq_one_iff, UInt32.le_iff_toNat_le]
        have := h c (by simp)
        have : c.val.toNat < 0x80 := this
        simp
        omega
      rw [List.flatMap_cons, List.length_append, String.length_utf8EncodeChar, hone,
        ih fun d hd => h d (by simp [hd]), List.length_cons]
      omega

theorem octets_append (s t : String) : octets (s ++ t) = octets s + octets t := by
  simp [octets, Encoding.Utf8.encode_append]

/-- Joined names take as many octets as other ones of the same lengths. -/
theorem octets_intercalate {xs ys : List String} (h : xs.map octets = ys.map octets) :
    octets ("/".intercalate xs) = octets ("/".intercalate ys) := by
  induction xs generalizing ys with
  | nil =>
      cases ys with
      | nil => rfl
      | cons y ys => cases h
  | cons x xs ih =>
      cases ys with
      | nil => cases h
      | cons y ys =>
          rw [List.map_cons, List.map_cons] at h
          obtain ⟨hhead, htail⟩ := List.cons.inj h
          by_cases hnil : xs = []
          · subst hnil
            obtain rfl : ys = [] := by simpa using htail.symm
            simpa using hhead
          · have hnil' : ys ≠ [] := by
              rintro rfl
              exact hnil (by simpa using htail)
            rw [String.intercalate_cons_of_ne_nil hnil, String.intercalate_cons_of_ne_nil hnil',
              octets_append, octets_append, octets_append, octets_append, hhead, ih htail]

/-- Joined names take one octet more each than on their own, at most. -/
theorem octets_intercalate_le (names : List String) :
    octets ("/".intercalate names) ≤ (names.map octets).sum + names.length := by
  induction names with
  | nil => decide
  | cons name rest ih =>
      have hslash : octets "/" = 1 := by decide
      by_cases hrest : rest = []
      · subst hrest
        simp
      · rw [String.intercalate_cons_of_ne_nil hrest, octets_append, octets_append, hslash,
          List.map_cons, List.sum_cons, List.length_cons]
        omega

/-- The octets in the text of a path that has names. -/
theorem octets_text (anchor : Path.Anchor) (h : names ≠ []) :
    octets (Path.text ⟨anchor, names⟩) = octets anchor.text + octets ("/".intercalate names) := by
  unfold Path.text
  split
  · rename_i heq
    exact absurd heq h
  · rw [octets_append]

/-! ## Locating -/

/-- Where the walk along a path starts. -/
def anchorPlace (tree : FileTree) : Path.Anchor → Location
  | .workingDirectory => tree.workingDirectory
  | _ => []

theorem Grows.anchorPlace (h : tree.Grows after) (anchor : Path.Anchor) :
    after.anchorPlace anchor = tree.anchorPlace anchor := by
  cases anchor with
  | workingDirectory => exact h.workingDirectory
  | root => rfl
  | doubleRoot => rfl

/-- A path that a file system looks at: its text is not too long and holds no NUL. -/
structure Admissible (path : Path) : Prop where
  noNul : (path.names.any fun name => name.toList.any (·.toNat == 0)) = false
  short : octets path.text ≤ pathLimit

/-- An admissible path is located by walking. -/
theorem Admissible.locate (h : Admissible path) (tree : FileTree) :
    tree.locate path = tree.walk (tree.anchorPlace path.anchor) path.names := by
  have hshort : ¬ pathLimit < octets path.text := Nat.not_lt.2 h.short
  unfold FileTree.locate
  rw [h.noNul, if_neg (by simp), if_neg hshort]
  cases path.anchor <;> rfl

/-- A path that leads on from another one is admissible only if that one is. -/
theorem Admissible.above {anchor : Path.Anchor} {more : List String}
    (h : Admissible ⟨anchor, names ++ more⟩) : Admissible ⟨anchor, names⟩ := by
  obtain ⟨hnul, hshort⟩ := h
  rw [List.any_append, Bool.or_eq_false_iff] at hnul
  refine ⟨hnul.1, ?_⟩
  -- the text of the whole path begins with the text of the first names
  by_cases hmore : more = []
  · subst hmore
    rwa [List.append_nil] at hshort
  by_cases hnames : names = []
  · subst hnames
    cases anchor <;> decide
  · rw [octets_text anchor (by simp [hnames]),
      String.intercalate_append_of_ne_nil hnames hmore, octets_append, octets_append] at hshort
    rw [octets_text anchor hnames]
    omega

/-- A path that is located, or missed for a reason in the tree, is admissible. -/
theorem admissible_of_locate (h : tree.locate path ≠ .error .nulCharacter)
    (h' : tree.locate path ≠ .error .nameTooLong) : Admissible path := by
  unfold FileTree.locate at h h'
  split at h
  · exact absurd rfl h
  · rename_i hnul
    rw [if_neg hnul] at h'
    split at h'
    · exact absurd rfl h'
    · rename_i hlong
      exact ⟨by simpa using hnul, Nat.not_lt.1 hlong⟩

theorem admissible_of_locate_ok (h : tree.locate path = .ok place) : Admissible path :=
  admissible_of_locate (by rw [h]; nofun) (by rw [h]; nofun)

/-- What was located is located at the same place. -/
theorem Grows.locate (h : tree.Grows after) (hlocate : tree.locate path = .ok place) :
    after.locate path = .ok place := by
  have hpath := admissible_of_locate_ok hlocate
  rw [hpath.locate] at hlocate ⊢
  rw [h.anchorPlace]
  exact h.walk hlocate

/-! ## Settled paths -/

/-- **The place that a path leads to**, if each of its `..` goes up from a directory that is
there: the names up to the last `..` can be walked, and the names behind it are passed on as
they are. The place itself and the last directories on the way need not exist. -/
def Leads (tree : FileTree) (path : Path) (place : Location) : Prop :=
  ∃ above below start, path.names = above ++ below ∧ ".." ∉ below ∧
    tree.walk (tree.anchorPlace path.anchor) above = .ok start ∧ place = start ++ below

/-- A path without `..` is settled in every tree. -/
theorem leads_of_straight (tree : FileTree) (h : ".." ∉ path.names) :
    tree.Leads path (tree.anchorPlace path.anchor ++ path.names) :=
  ⟨[], path.names, tree.anchorPlace path.anchor, rfl, h, rfl, rfl⟩

theorem Leads.mono (h : tree.Leads path place) (hgrows : tree.Grows after) :
    after.Leads path place := by
  obtain ⟨above, below, start, hnames, hstraight, hwalk, hplace⟩ := h
  exact ⟨above, below, start, hnames, hstraight,
    by rw [hgrows.anchorPlace]; exact hgrows.walk hwalk, hplace⟩

/-- **A settled path is found where it leads to, or not at all.** -/
theorem Leads.locate_eq (h : tree.Leads path place) (hlocate : tree.locate path = .ok target) :
    target = place := by
  obtain ⟨above, below, start, hnames, hstraight, hwalk, hplace⟩ := h
  rw [(admissible_of_locate_ok hlocate).locate, hnames, walk_append, hwalk] at hlocate
  rw [hplace]
  exact ((walk_eq_ok_iff hstraight).1 hlocate).1

/-- A walk that goes on without `..` comes to where the further names say. -/
theorem walk_append_eq {more : List String} {stop : Location} (hmore : ".." ∉ more)
    (hstop : tree.walk place names = .ok stop)
    (hwalk : tree.walk place (names ++ more) = .ok target) : target = stop ++ more := by
  rw [walk_append, hstop] at hwalk
  exact ((walk_eq_ok_iff hmore).1 hwalk).1

/-- **A settled path leads to one place.** -/
theorem Leads.unique (h : tree.Leads path place) (h' : tree.Leads path target) :
    target = place := by
  obtain ⟨above, below, start, hnames, hstraight, hwalk, rfl⟩ := h
  obtain ⟨above', below', start', hnames', hstraight', hwalk', rfl⟩ := h'
  -- the names between the two ends of a walk hold no `..`, as they are behind one of them
  rcases List.append_eq_append_iff.1 (hnames.symm.trans hnames') with
    ⟨mid, rfl, rfl⟩ | ⟨mid, rfl, rfl⟩
  · have hmid : ".." ∉ mid := fun hmem => hstraight (List.mem_append_left _ hmem)
    rw [walk_append_eq hmid hwalk hwalk', List.append_assoc]
  · have hmid : ".." ∉ mid := fun hmem => hstraight' (List.mem_append_left _ hmem)
    rw [walk_append_eq hmid hwalk' hwalk, List.append_assoc]

/-- Further names lead on from there. -/
theorem Leads.join (h : tree.Leads path place) {more : List String} (hmore : ".." ∉ more) :
    tree.Leads ⟨path.anchor, path.names ++ more⟩ (place ++ more) := by
  obtain ⟨above, below, start, hnames, hstraight, hwalk, hplace⟩ := h
  refine ⟨above, below ++ more, start, ?_, ?_, hwalk, ?_⟩
  · rw [hnames, List.append_assoc]
  · rw [List.mem_append]
    rintro (hm | hm)
    · exact hstraight hm
    · exact hmore hm
  · rw [hplace, List.append_assoc]

end LockPrefetch.FileTree
