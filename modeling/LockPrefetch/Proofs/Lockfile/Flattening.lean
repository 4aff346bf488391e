import LockPrefetch.Lockfile.Flatten

/-! # Flat maps of trees

A tree is flattened with a stack of dependencies that wait. What that amounts to is a recursion:
a dependency is entered, then all that lies below it, then its siblings (`visitAll`). It fails
with a shorthand that names no repository, if the URLs of the tree can be split
(`flatten_depth_first`).

A dependency goes under its name, a dash and its version. Both may hold dashes, so that different
dependencies may meet under one key: `a` of version `b-c` and `a-b` of version `c`. Such pairs are
those that `Shifted` describes, and there are no others (`key_eq_iff`). Of the dependencies that
meet under a key the last one stays (`entry_or_later`). -/

set_option autoImplicit false

namespace LockPrefetch

/-! ## Entries put one after another -/

namespace Ordered

variable {κ α : Type} [DecidableEq κ]

/-- Puts pairs into a map, one after another. -/
def putAll (map pairs : List (κ × α)) : List (κ × α) :=
  pairs.foldl (fun map pair => put pair.1 pair.2 map) map

theorem get?_putAll_of_not_mem {key : κ} {pairs : List (κ × α)} (h : key ∉ pairs.map Prod.fst)
    (map : List (κ × α)) : get? key (putAll map pairs) = get? key map := by
  induction pairs generalizing map with
  | nil => rfl
  | cons pair rest ih =>
    simp only [List.map_cons, List.mem_cons, not_or] at h
    show get? key (putAll (put pair.1 pair.2 map) rest) = get? key map
    rw [ih h.2, get?_put, if_neg (Ne.symm h.1)]

theorem putAll_append (map xs ys : List (κ × α)) :
    putAll map (xs ++ ys) = putAll (putAll map xs) ys :=
  List.foldl_append

theorem mem_putAll {key : κ} {value : α} {map pairs : List (κ × α)}
    (h : (key, value) ∈ putAll map pairs) : (key, value) ∈ map ∨ (key, value) ∈ pairs := by
  induction pairs generalizing map with
  | nil => exact Or.inl h
  | cons pair rest ih =>
    rcases ih h with hmap | hrest
    · rcases mem_put hmap with ⟨rfl, rfl⟩ | hold
      · exact Or.inr List.mem_cons_self
      · exact Or.inl hold
    · exact Or.inr (List.mem_cons_of_mem _ hrest)

/-- **The last value of a key stays.** -/
theorem get?_putAll {key : κ} {after : List (κ × α)} (h : key ∉ after.map Prod.fst) (value : α)
    (map before : List (κ × α)) :
    get? key (putAll map (before ++ (key, value) :: after)) = some value := by
  show get? key (List.foldl _ map (before ++ (key, value) :: after)) = some value
  rw [List.foldl_append]
  exact (get?_putAll_of_not_mem h _).trans (by rw [get?_put, if_pos rfl])

end Ordered

namespace Dependency

variable {tree siblings waiting : List (String × Dependency)} {name : String} {d : Dependency}
  {version : Specifier} {failure : Failure} {map : List (String × Package)}
  {canonical : Dependency → Specifier}

/-! ## All dependencies of a tree -/

/-- **A dependency occurs in a tree** under a name, at some depth. -/
inductive Occurs : List (String × Dependency) → String → Dependency → Prop
  | here {siblings : List (String × Dependency)} {name : String} {d : Dependency} :
      (name, d) ∈ siblings → Occurs siblings name d
  | deeper {siblings : List (String × Dependency)} {name above : String} {d parent : Dependency} :
      (above, parent) ∈ siblings → Occurs parent.children name d → Occurs siblings name d

theorem preorder_eq (name : String) (d : Dependency) :
    preorder name d = (name, d) :: preorderAll d.children := by
  obtain ⟨version, package, _ | below⟩ := d
  · rw [preorder]
    rfl
  · rw [preorder]
    rfl

theorem preorderAll_append (xs ys : List (String × Dependency)) :
    preorderAll (xs ++ ys) = preorderAll xs ++ preorderAll ys := by
  induction xs with
  | nil => rfl
  | cons x rest ih => simp [preorderAll, ih]

/-- The dependencies of the first one come before its siblings. -/
theorem preorderAll_cons (name : String) (d : Dependency) (rest : List (String × Dependency)) :
    preorderAll ((name, d) :: rest) = (name, d) :: preorderAll (d.children ++ rest) := by
  rw [preorderAll, preorder_eq, preorderAll_append, List.cons_append]

theorem mem_preorderAll_of_mem (h : (name, d) ∈ siblings) {visit : String × Dependency}
    (hvisit : visit ∈ preorder name d) : visit ∈ preorderAll siblings := by
  obtain ⟨before, after, rfl⟩ := List.append_of_mem h
  rw [preorderAll_append, preorderAll]
  exact List.mem_append_right _ (List.mem_append_left _ hvisit)

mutual

theorem occurs_of_mem_preorder {visit : String × Dependency} (name : String) :
    (d : Dependency) → visit ∈ preorder name d →
      visit = (name, d) ∨ Occurs d.children visit.1 visit.2
  | .node version package none, h => Or.inl (List.mem_singleton.1 h)
  | .node version package (some below), h => by
    rcases List.mem_cons.1 h with h | h
    · exact Or.inl h
    · exact Or.inr (occurs_of_mem_preorderAll below h)

theorem occurs_of_mem_preorderAll {visit : String × Dependency} :
    (tree : List (String × Dependency)) → visit ∈ preorderAll tree →
      Occurs tree visit.1 visit.2
  | [], h => absurd h List.not_mem_nil
  | (name, d) :: rest, h => by
    rcases List.mem_append.1 h with h | h
    · rcases occurs_of_mem_preorder name d h with rfl | hbelow
      · exact .here List.mem_cons_self
      · exact .deeper List.mem_cons_self hbelow
    · cases occurs_of_mem_preorderAll rest h with
      | here hmem => exact .here (List.mem_cons_of_mem _ hmem)
      | deeper hmem hbelow => exact .deeper (List.mem_cons_of_mem _ hmem) hbelow

end

/-- **What is visited is what occurs in the tree.** -/
theorem mem_preorderAll_iff : (name, d) ∈ preorderAll tree ↔ Occurs tree name d := by
  refine ⟨occurs_of_mem_preorderAll tree, fun h => ?_⟩
  induction h with
  | here hmem =>
    refine mem_preorderAll_of_mem hmem ?_
    rw [preorder_eq]
    exact List.mem_cons_self
  | deeper hmem _ ih =>
    refine mem_preorderAll_of_mem hmem ?_
    rw [preorder_eq]
    exact List.mem_cons_of_mem _ ih

/-! ## Entries -/

/-- The key of a name and a version. -/
def key (name : String) (version : Specifier) : String := name ++ "-" ++ version.text

/-- The package of a dependency of a version: a URL stands for itself. -/
def packageAs (version : Specifier) (d : Dependency) : Package where
  resolved :=
    match version with
    | .url u => some (.url u)
    | .other _ => d.package.resolved
  integrity := d.package.integrity

/-- The key and the package of a dependency that is visited. -/
def flatEntryOf (visited : String × Dependency) : Except Failure (String × Package) :=
  visited.2.flatEntry visited.1

/-- **A dependency is entered** if its version has a canonical form, and fails as it does. -/
theorem flatEntryOf_eq (name : String) (d : Dependency) :
    flatEntryOf (name, d) =
      d.canonicalVersion.map fun version => (key name version, packageAs version d) := by
  rw [flatEntryOf, flatEntry]
  cases d.canonicalVersion <;> rfl

theorem flatEntryOf_eq_ok {made : String × Package} (h : flatEntryOf (name, d) = .ok made) :
    ∃ version, d.canonicalVersion = .ok version ∧
      made = (key name version, packageAs version d) := by
  rw [flatEntryOf_eq] at h
  cases hversion : d.canonicalVersion with
  | ok version =>
    rw [hversion] at h
    cases h
    exact ⟨version, rfl, rfl⟩
  | error failure =>
    rw [hversion] at h
    cases h

theorem flatEntryOf_eq_error (h : flatEntryOf (name, d) = .error failure) :
    d.canonicalVersion = .error failure := by
  rw [flatEntryOf_eq] at h
  cases hversion : d.canonicalVersion with
  | ok version =>
    rw [hversion] at h
    cases h
  | error other =>
    rw [hversion] at h
    cases h
    rfl

/-! ## Dependencies that meet under one key -/

/-- A name goes on with a dash and a part of the other version. -/
def Shifted (name version longer rest : String) : Prop :=
  ∃ middle, longer = name ++ "-" ++ middle ∧ version = middle ++ "-" ++ rest

/-- Names and versions that spell one key: they are the same, or a part that stands between two
dashes belongs to the version of the one and to the name of the other. -/
def Meet (name version other version' : String) : Prop :=
  (name = other ∧ version = version') ∨ Shifted name version other version' ∨
    Shifted other version' name version

/-- What is between the ends of two names belongs to the version of the shorter one. -/
theorem same_or_shifted {name version other rest : String} {gap : List Char}
    (hname : other.toList = name.toList ++ gap)
    (hversion : '-' :: version.toList = gap ++ '-' :: rest.toList) :
    (name = other ∧ version = rest) ∨ Shifted name version other rest := by
  cases gap with
  | nil =>
    left
    constructor
    · exact String.toList_inj.1 (by simpa using hname.symm)
    · exact String.toList_inj.1 (by simpa using hversion)
  | cons dash middle =>
    obtain ⟨rfl, hmiddle⟩ : '-' = dash ∧ version.toList = middle ++ '-' :: rest.toList := by
      simpa using hversion
    refine Or.inr ⟨String.ofList middle, String.toList_inj.1 ?_, String.toList_inj.1 ?_⟩
    · simp [hname]
    · simp [hmiddle]

/-- **Which names and versions spell one key.** -/
theorem key_eq_iff {name other : String} {version version' : Specifier} :
    key name version = key other version' ↔ Meet name version.text other version'.text := by
  constructor
  · intro h
    have hlist := congrArg String.toList h
    simp only [key, String.toList_append, List.append_assoc] at hlist
    rcases List.append_eq_append_iff.1 hlist with ⟨gap, hname, hrest⟩ | ⟨gap, hname, hrest⟩
    · rcases same_or_shifted hname hrest with hsame | hshifted
      · exact Or.inl hsame
      · exact Or.inr (Or.inl hshifted)
    · rcases same_or_shifted hname hrest with ⟨hname, hversion⟩ | hshifted
      · exact Or.inl ⟨hname.symm, hversion.symm⟩
      · exact Or.inr (Or.inr hshifted)
  · rintro (⟨rfl, hversion⟩ | ⟨middle, rfl, hversion⟩ | ⟨middle, rfl, hversion⟩)
    · rw [key, key, hversion]
    · simp [key, hversion, String.append_assoc]
    · simp [key, hversion, String.append_assoc]

/-! ## Shorthands without a repository -/

/-- The schemes of shorthands. -/
def shorthandSchemes : List String := ["github", "bitbucket", "gitlab"]

theorem host?_isSome_iff {scheme : String} :
    (Shorthand.host? scheme).isSome ↔ scheme ∈ shorthandSchemes := by
  unfold Shorthand.host? shorthandSchemes
  split <;> simp_all

/-- The version of a dependency is a shorthand whose path consists of slashes only. -/
def LacksRepository (d : Dependency) : Prop :=
  ∃ u parts, d.version = .url u ∧ u.parts = .ok parts ∧ parts.scheme ∈ shorthandSchemes ∧
    ∀ c ∈ parts.path.toList, c = '/'

theorem canonicalVersion_of_lacks (h : LacksRepository d) :
    ∃ u, d.canonicalVersion = .error (.diagnosed (Shorthand.noRepository u)) := by
  obtain ⟨u, parts, hversion, hparts, hscheme, hpath⟩ := h
  refine ⟨u, ?_⟩
  obtain ⟨host, hhost⟩ := Option.isSome_iff_exists.1 (host?_isSome_iff.2 hscheme)
  have halias : parts.scheme ≠ aliasScheme := by
    rintro heq
    rw [heq] at hscheme
    revert hscheme
    decide
  have hslashes : parts.path.toList.all (· == '/') = true := by simpa using hpath
  simp only [canonicalVersion, hversion, hparts, mapError_ok, Shorthand.rewrite, hhost, halias,
    hslashes, bind, Except.bind, if_false, if_true]

theorem lacks_of_canonicalVersion (h : d.canonicalVersion = .error failure) {u : Url}
    {parts : Url.Parts} (hversion : d.version = .url u) (hparts : u.parts = .ok parts) :
    LacksRepository d ∧ failure = .diagnosed (Shorthand.noRepository u) := by
  simp only [canonicalVersion, hversion, hparts, mapError_ok, Shorthand.rewrite, bind,
    Except.bind] at h
  split at h
  · split at h <;> cases h
  · cases hhost : Shorthand.host? parts.scheme with
    | none => simp [hhost, pure, Except.pure] at h
    | some host =>
      by_cases hslashes : parts.path.toList.all (· == '/') = true
      · simp only [hhost, hslashes, if_true] at h
        cases h
        refine ⟨⟨u, parts, hversion, hparts, ?_, by simpa using hslashes⟩, rfl⟩
        exact host?_isSome_iff.1 (by rw [hhost]; rfl)
      · simp only [hhost, hslashes] at h
        cases h

/-- **A URL in canonical form** is what an alias was resolved to, or what the version is rewritten
to. -/
theorem canonicalVersion_eq_url {u : Url} (h : d.canonicalVersion = .ok (.url u)) :
    ∃ own parts, d.version = .url own ∧ own.parts = .ok parts ∧
      ((parts.scheme = aliasScheme ∧ d.package.resolved = some (.url u)) ∨
        (parts.scheme ≠ aliasScheme ∧ Shorthand.rewrite own = .ok u)) := by
  unfold canonicalVersion at h
  split at h
  · cases h
  · rename_i own hversion
    obtain ⟨parts, hparts, h⟩ := bind_eq_ok_iff.1 h
    cases hsplit : own.parts with
    | error fault =>
      rw [hsplit] at hparts
      cases hparts
    | ok read =>
      rw [hsplit] at hparts
      cases hparts
      refine ⟨own, parts, hversion, hsplit, ?_⟩
      split at h
      · rename_i halias
        split at h
        · rename_i resolved hresolved
          cases h
          exact Or.inl ⟨halias, hresolved⟩
        · cases h
      · rename_i halias
        obtain ⟨remote, hremote, h⟩ := bind_eq_ok_iff.1 h
        cases h
        exact Or.inr ⟨halias, hremote⟩

/-! ## The recursion -/

mutual

/-- **A dependency is visited**: it is entered in a map, and then all that lies below it. -/
def visit (canonical : Dependency → Specifier) (map : List (String × Package)) (name : String) :
    Dependency → List (String × Package)
  | .node version package none =>
    let d : Dependency := .node version package none
    Ordered.put (key name (canonical d)) (packageAs (canonical d) d) map
  | .node version package (some children) =>
    let d : Dependency := .node version package (some children)
    visitAll canonical (Ordered.put (key name (canonical d)) (packageAs (canonical d) d) map)
      children

/-- Siblings are visited one after another. -/
def visitAll (canonical : Dependency → Specifier) (map : List (String × Package)) :
    List (String × Dependency) → List (String × Package)
  | [] => map
  | (name, d) :: rest => visitAll canonical (visit canonical map name d) rest

end

/-- What a dependency is entered as. -/
def entry (canonical : Dependency → Specifier) (visited : String × Dependency) :
    String × Package :=
  (key visited.1 (canonical visited.2), packageAs (canonical visited.2) visited.2)

mutual

theorem visit_eq_putAll (canonical : Dependency → Specifier) (map : List (String × Package))
    (name : String) : (d : Dependency) →
      visit canonical map name d = Ordered.putAll map ((preorder name d).map (entry canonical))
  | .node _ _ none => by
    rw [visit, preorder]
    rfl
  | .node _ _ (some below) => by
    rw [visit, preorder, visitAll_eq_putAll canonical _ below]
    rfl

theorem visitAll_eq_putAll (canonical : Dependency → Specifier) (map : List (String × Package)) :
    (tree : List (String × Dependency)) →
      visitAll canonical map tree =
        Ordered.putAll map ((preorderAll tree).map (entry canonical))
  | [] => rfl
  | (name, d) :: rest => by
    rw [visitAll, preorderAll, visitAll_eq_putAll canonical _ rest,
      visit_eq_putAll canonical map name d, List.map_append, Ordered.putAll_append]

end

end Dependency

namespace Lockfile

open Dependency

variable {tree waiting before after : List (String × Dependency)} {name : String}
  {d : Dependency} {version : Specifier} {failure : Failure} {map : List (String × Package)}
  {canonical : Dependency → Specifier}

/-! ## The stack -/

/-- **The stack visits the dependencies in their order**, and enters one after another. -/
theorem flattenInto_eq (map : List (String × Package)) (waiting : List (String × Dependency)) :
    flattenInto map waiting =
      ((preorderAll waiting).mapM flatEntryOf).map (Ordered.putAll map) := by
  fun_induction flattenInto map waiting with
  | case1 map => rfl
  | case2 map name d waiting ih =>
    rw [preorderAll_cons, List.mapM_cons, flatEntryOf]
    cases hentry : d.flatEntry name with
    | error failure => rfl
    | ok first =>
      obtain ⟨key, package⟩ := first
      show flattenInto (Ordered.put key package map) (d.children ++ waiting) = _
      rw [ih]
      cases hrest : (preorderAll (d.children ++ waiting)).mapM flatEntryOf with
      | error failure => rfl
      | ok entries => rfl

theorem flatten_eq_ok_iff : flatten tree = .ok map ↔
    ∃ entries, (preorderAll tree).mapM flatEntryOf = .ok entries ∧
      Ordered.putAll [] entries = map := by
  rw [flatten, flattenInto_eq]
  cases (preorderAll tree).mapM flatEntryOf <;> simp [Except.map]

theorem flatten_eq_error_iff : flatten tree = .error failure ↔
    (preorderAll tree).mapM flatEntryOf = .error failure := by
  rw [flatten, flattenInto_eq]
  cases (preorderAll tree).mapM flatEntryOf <;> simp [Except.map]

/-- A tree is refused for one of its dependencies. -/
theorem occurs_of_flatten_error (h : flatten tree = .error failure) :
    ∃ name d, Occurs tree name d ∧ d.canonicalVersion = .error failure := by
  obtain ⟨⟨name, d⟩, hvisit, hentry⟩ := exists_of_mapM_eq_error (flatten_eq_error_iff.1 h)
  exact ⟨name, d, mem_preorderAll_iff.1 hvisit, flatEntryOf_eq_error hentry⟩

/-- In a tree that is accepted every dependency has a canonical version. -/
theorem canonicalVersion_of_flatten (h : flatten tree = .ok map) (hoccurs : Occurs tree name d) :
    ∃ version, d.canonicalVersion = .ok version := by
  obtain ⟨entries, hentries, _⟩ := flatten_eq_ok_iff.1 h
  obtain ⟨before, after, hsplit⟩ := List.append_of_mem (mem_preorderAll_iff.2 hoccurs)
  rw [hsplit] at hentries
  obtain ⟨_, _, _, _, hentry, _, _⟩ := mapM_append_cons_eq_ok hentries
  obtain ⟨version, hversion, _⟩ := flatEntryOf_eq_ok hentry
  exact ⟨version, hversion⟩

/-- **Whatever stands in the flat map was entered** for a dependency of the tree. -/
theorem exists_of_mem_flatten (h : flatten tree = .ok map) {made : String × Package}
    (hmade : made ∈ map) : ∃ name d version, Occurs tree name d ∧
      d.canonicalVersion = .ok version ∧ made = (key name version, packageAs version d) := by
  obtain ⟨entries, hentries, rfl⟩ := flatten_eq_ok_iff.1 h
  rcases Ordered.mem_putAll hmade with hnone | hmem
  · cases hnone
  · obtain ⟨⟨name, d⟩, hvisit, hentry⟩ := exists_of_mem_mapM hentries hmem
    obtain ⟨version, hversion, hsame⟩ := flatEntryOf_eq_ok hentry
    exact ⟨name, d, version, mem_preorderAll_iff.1 hvisit, hversion, hsame⟩

theorem flatten_eq_visitAll
    (h : ∀ name d, Occurs tree name d → d.canonicalVersion = .ok (canonical d)) :
    flatten tree = .ok (visitAll canonical [] tree) := by
  rw [visitAll_eq_putAll]
  refine flatten_eq_ok_iff.2 ⟨_, mapM_eq_ok ?_, rfl⟩
  rintro ⟨name, d⟩ hvisited
  rw [flatEntryOf_eq, h name d (mem_preorderAll_iff.1 hvisited)]
  rfl

/-- A tree whose URLs can be split is refused for a shorthand without a repository. -/
theorem lacks_of_flatten_error (h : flatten tree = .error failure)
    (hsplit : ∀ name d u, Occurs tree name d → d.version = .url u →
      ∃ parts, u.parts = .ok parts) :
    ∃ name d u, Occurs tree name d ∧ LacksRepository d ∧
      failure = .diagnosed (Shorthand.noRepository u) := by
  obtain ⟨name, d, hoccurs, herror⟩ := occurs_of_flatten_error h
  cases hversion : d.version with
  | other text => simp [canonicalVersion, hversion] at herror
  | url u =>
    obtain ⟨parts, hparts⟩ := hsplit name d u hoccurs hversion
    obtain ⟨hlacks, hfailure⟩ := lacks_of_canonicalVersion herror hversion hparts
    exact ⟨name, d, u, hoccurs, hlacks, hfailure⟩

/-- **A tree is flattened depth first.** If every dependency of it has a version in canonical
form, the result is what the recursion enters into the empty map. If its URLs can be split, it
is refused as a bad shorthand if and only if some dependency, at any depth, is a shorthand that
names no repository. -/
theorem flatten_depth_first (tree : List (String × Dependency)) :
    (∀ canonical : Dependency → Specifier,
      (∀ name d, Occurs tree name d → d.canonicalVersion = .ok (canonical d)) →
      flatten tree = .ok (visitAll canonical [] tree)) ∧
    ((∀ name d u, Occurs tree name d → d.version = .url u → ∃ parts, u.parts = .ok parts) →
      ((∃ report, flatten tree = .error (.diagnosed report) ∧ report.kind = .urlRewrite) ↔
        ∃ name d, Occurs tree name d ∧ LacksRepository d)) := by
  refine ⟨fun canonical h => flatten_eq_visitAll h, fun hsplit => ⟨?_, ?_⟩⟩
  · rintro ⟨report, hreport, _⟩
    obtain ⟨name, d, _, hoccurs, hlacks, _⟩ := lacks_of_flatten_error hreport hsplit
    exact ⟨name, d, hoccurs, hlacks⟩
  · rintro ⟨name, d, hoccurs, hlacks⟩
    cases hflatten : flatten tree with
    | ok map =>
      obtain ⟨version, hok⟩ := canonicalVersion_of_flatten hflatten hoccurs
      obtain ⟨u, herror⟩ := canonicalVersion_of_lacks hlacks
      rw [hok] at herror
      cases herror
    | error failure =>
      -- the failure is that of the first dependency without a repository, which may be another
      obtain ⟨_, _, u, _, _, rfl⟩ := lacks_of_flatten_error hflatten hsplit
      exact ⟨_, rfl, rfl⟩

/-- A dependency, and the same one once more below another. -/
def repeated : List (String × Dependency) :=
  [("a", .node (.other "1.0.0") ⟨none, some "sha1-first"⟩ none),
   ("b", .node (.other "2.0.0") ⟨none, none⟩
     (some [("a", .node (.other "1.0.0") ⟨none, some "sha1-second"⟩ none)]))]

/-- A shorthand without a repository below another dependency. -/
def pathless : List (String × Dependency) :=
  [("a", .node (.other "1.0.0") ⟨none, none⟩
     (some [("b", .node (.url ⟨"github:/"⟩) ⟨none, none⟩ none)]))]

theorem flatten_depth_first_below :
    (∀ name d, Occurs repeated name d → d.canonicalVersion = .ok d.version) ∧
    flatten repeated =
      .ok [("a-1.0.0", ⟨none, some "sha1-second"⟩), ("b-2.0.0", ⟨none, none⟩)] ∧
    (∀ name d u, Occurs pathless name d → d.version = .url u → ∃ parts, u.parts = .ok parts) ∧
    ∃ report, flatten pathless = .error (.diagnosed report) ∧ report.kind = .urlRewrite := by
  have hcanonical : ∀ name d, Occurs repeated name d → d.canonicalVersion = .ok d.version := by
    intro name d hoccurs
    have hvisit := mem_preorderAll_iff.2 hoccurs
    simp only [repeated, preorderAll, preorder, List.nil_append, List.cons_append,
      List.append_nil, List.mem_cons, Prod.mk.injEq, List.not_mem_nil, or_false] at hvisit
    rcases hvisit with ⟨_, rfl⟩ | ⟨_, rfl⟩ | ⟨_, rfl⟩ <;> rfl
  have hparts : (Url.mk "github:/").parts = .ok ⟨"github", "", "/", "", ""⟩ := rfl
  have hsplit : ∀ name d u, Occurs pathless name d → d.version = .url u →
      ∃ parts, u.parts = .ok parts := by
    intro name d u hoccurs hversion
    have hvisit := mem_preorderAll_iff.2 hoccurs
    simp only [pathless, preorderAll, preorder, List.append_nil, List.mem_cons, Prod.mk.injEq,
      List.not_mem_nil, or_false] at hvisit
    rcases hvisit with ⟨_, rfl⟩ | ⟨_, rfl⟩
    · cases hversion
    · cases hversion
      exact ⟨_, hparts⟩
  refine ⟨hcanonical, (flatten_depth_first repeated).1 _ hcanonical, hsplit, ?_⟩
  have hslashes : ∀ c ∈ "/".toList, c = '/' := by simp
  have hlacks : LacksRepository (.node (.url ⟨"github:/"⟩) ⟨none, none⟩ none) :=
    ⟨_, _, rfl, hparts, by decide, hslashes⟩
  exact ((flatten_depth_first pathless).2 hsplit).2
    ⟨"b", _, .deeper List.mem_cons_self (.here List.mem_cons_self), hlacks⟩

/-! ## What stays under a key -/

/-- **A dependency has its own entry**, unless a later one meets it under its key. -/
theorem entry_or_later (h : flatten tree = .ok map)
    (hvisit : preorderAll tree = before ++ (name, d) :: after) :
    ∃ version, d.canonicalVersion = .ok version ∧
      (Ordered.get? (key name version) map = some (packageAs version d) ∨
        ∃ other later version', (other, later) ∈ after ∧
          later.canonicalVersion = .ok version' ∧
          Meet name version.text other version'.text) := by
  obtain ⟨entries, hentries, rfl⟩ := flatten_eq_ok_iff.1 h
  rw [hvisit] at hentries
  obtain ⟨first, own, last, _, hown, hlast, rfl⟩ := mapM_append_cons_eq_ok hentries
  obtain ⟨version, hversion, rfl⟩ := flatEntryOf_eq_ok hown
  refine ⟨version, hversion, ?_⟩
  by_cases hkey : key name version ∈ last.map Prod.fst
  · right
    obtain ⟨made, hmade, hsame⟩ := List.mem_map.1 hkey
    obtain ⟨⟨other, later⟩, hlater, hentry⟩ := exists_of_mem_mapM hlast hmade
    obtain ⟨version', hversion', rfl⟩ := flatEntryOf_eq_ok hentry
    exact ⟨other, later, version', hlater, hversion', key_eq_iff.1 hsame.symm⟩
  · left
    exact Ordered.get?_putAll hkey _ [] first

/-- What is somewhere in a list has a last place in it. -/
theorem exists_last {α : Type} {p : α → Prop} {xs : List α} (h : ∃ x ∈ xs, p x) :
    ∃ before x after, xs = before ++ x :: after ∧ p x ∧ ∀ y ∈ after, ¬ p y := by
  induction xs with
  | nil =>
    obtain ⟨_, hx, _⟩ := h
    cases hx
  | cons x rest ih =>
    by_cases hrest : ∃ y ∈ rest, p y
    · obtain ⟨before, y, after, rfl, hy, hlast⟩ := ih hrest
      exact ⟨x :: before, y, after, rfl, hy, hlast⟩
    · obtain ⟨y, hy, hpy⟩ := h
      rcases List.mem_cons.1 hy with rfl | hmem
      · exact ⟨[], y, rest, rfl, hpy, fun z hz hpz => hrest ⟨z, hz, hpz⟩⟩
      · exact absurd ⟨y, hmem, hpy⟩ hrest

/-- **What a flat map keeps of a tree.** -/
structure KeepsLast (tree : List (String × Dependency)) (map : List (String × Package)) :
    Prop where
  /-- A dependency is missing only if a later one meets it. -/
  entry_or_later : ∀ before name d after, preorderAll tree = before ++ (name, d) :: after →
    ∃ version, d.canonicalVersion = .ok version ∧
      (Ordered.get? (key name version) map = some (packageAs version d) ∨
        ∃ other later version', (other, later) ∈ after ∧
          later.canonicalVersion = .ok version' ∧ Meet name version.text other version'.text)
  /-- Names and versions that do not meet have different keys. -/
  key_eq_iff : ∀ name version other version',
    key name version = key other version' ↔ Meet name version.text other version'.text
  /-- Under the key of a dependency stands the last one that meets it. -/
  last_entry : ∀ name d, Occurs tree name d → ∃ version, d.canonicalVersion = .ok version ∧
    ∃ before other last after version', preorderAll tree = before ++ (other, last) :: after ∧
      last.canonicalVersion = .ok version' ∧ Meet name version.text other version'.text ∧
      Ordered.get? (key name version) map = some (packageAs version' last) ∧
      ∀ third later version'', (third, later) ∈ after →
        later.canonicalVersion = .ok version'' → ¬ Meet name version.text third version''.text

/-- **A dependency gives way to a later one of the same key only**, and different names and
versions have the same key only if a part between dashes changes sides. -/
theorem keepsLast_of_flatten (h : flatten tree = .ok map) : KeepsLast tree map := by
  refine ⟨fun _ _ _ _ => entry_or_later h, fun _ _ _ _ => key_eq_iff, ?_⟩
  intro name d hoccurs
  obtain ⟨version, hversion⟩ := canonicalVersion_of_flatten h hoccurs
  refine ⟨version, hversion, ?_⟩
  obtain ⟨before, ⟨other, last⟩, after, hsplit, ⟨version', hversion', hmeet⟩, hlast⟩ :=
    exists_last (p := fun visited => ∃ version', visited.2.canonicalVersion = .ok version' ∧
      Meet name version.text visited.1 version'.text)
      ⟨(name, d), mem_preorderAll_iff.2 hoccurs, version, hversion, Or.inl ⟨rfl, rfl⟩⟩
  have hkey : key name version = key other version' := key_eq_iff.2 hmeet
  refine ⟨before, other, last, after, version', hsplit, hversion', hmeet, ?_, ?_⟩
  · obtain ⟨own, hown, hentry | ⟨third, later, version'', hmem, hlater, hagain⟩⟩ :=
      entry_or_later h hsplit
    · rw [hversion'] at hown
      cases hown
      rw [hkey, hentry]
    · -- whatever meets the last one meets the first one
      rw [hversion'] at hown
      cases hown
      refine absurd ⟨version'', hlater, ?_⟩ (hlast _ hmem)
      exact key_eq_iff.1 (hkey.trans (key_eq_iff.2 hagain))
  · intro third later version'' hmem hlater hagain
    exact hlast _ hmem ⟨version'', hlater, hagain⟩

/-- Two dependencies of different names and versions, between which a part changes sides. -/
def dashed : List (String × Dependency) :=
  [("a", .node (.other "b-c") ⟨none, some "sha1-a"⟩ none),
   ("a-b", .node (.other "c") ⟨none, some "sha1-b"⟩ none)]

theorem flatten_dashed : flatten dashed = .ok [("a-b-c", ⟨none, some "sha1-b"⟩)] := by
  have hcanonical : ∀ name d, Occurs dashed name d → d.canonicalVersion = .ok d.version := by
    intro name d hoccurs
    have hvisit := mem_preorderAll_iff.2 hoccurs
    simp only [dashed, preorderAll, preorder, List.cons_append, List.nil_append, List.mem_cons,
      Prod.mk.injEq, List.not_mem_nil, or_false] at hvisit
    rcases hvisit with ⟨_, rfl⟩ | ⟨_, rfl⟩ <;> rfl
  rw [flatten_eq_visitAll hcanonical]
  rfl

theorem keepsLast_dashed :
    flatten dashed = .ok [("a-b-c", ⟨none, some "sha1-b"⟩)] ∧
    KeepsLast dashed [("a-b-c", ⟨none, some "sha1-b"⟩)] :=
  ⟨flatten_dashed, keepsLast_of_flatten flatten_dashed⟩

/-- The first of them has no entry, although no later one has its name and its version. -/
theorem missing_dashed :
    ∃ map, flatten dashed = .ok map ∧
      ¬ ∀ before name d after version, preorderAll dashed = before ++ (name, d) :: after →
        d.canonicalVersion = .ok version →
        Ordered.get? (key name version) map = some (packageAs version d) ∨
          ∃ other later version', (other, later) ∈ after ∧
            later.canonicalVersion = .ok version' ∧ other = name ∧
            version'.text = version.text := by
  refine ⟨_, flatten_dashed, fun h => ?_⟩
  rcases h [] "a" _ [_] (.other "b-c") rfl rfl with hentry | ⟨_, _, _, hmem, _, hname, _⟩
  · revert hentry
    decide
  · rw [List.mem_singleton] at hmem
    cases hmem
    revert hname
    decide

end Lockfile

end LockPrefetch
