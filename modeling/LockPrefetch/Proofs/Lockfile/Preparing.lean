import LockPrefetch.Proofs.Lockfile.Flattening
import LockPrefetch.Proofs.Lockfile.Grammar
import LockPrefetch.Proofs.Lockfile.Parsing
import LockPrefetch.Proofs.Planning
import LockPrefetch.Proofs.Url.Shorthands

/-! # From a lockfile to a plan

A lockfile is planned by way of its flat map. This should end in a plan, in a report on the
lockfile, or in a report that names the first package that is refused (`EndsProperly`). It does
unless a URL is come to that cannot be split; then the malformation comes up as it is, without a
report and without a package (`prepared`).

In a lockfile that was parsed such a URL is one that was tagged, and its text was

    scheme:////hidden

with a hidden authority that is not accepted: what the text is joined to is split another way. -/

set_option autoImplicit false

namespace LockPrefetch.Lockfile

open Dependency
open Json (Value)
open Url (Hides checkAuthority)

variable {policy : Policy} {lock : Lockfile} {u : Url} {fault : Url.Malformed} {failure : Failure}
  {tree : List (String × Dependency)} {map : List (String × Package)} {name key : String}
  {d : Dependency} {package : Package}

/-! ## Outcomes -/

/-- Plans the downloads of a lockfile. -/
def plan (policy : Policy) (lock : Lockfile) : Except Failure Plan := do
  (Plan.make policy (← lock.normalize)).result

/-- **What planning should end in**: a plan, a report on the lockfile, or a report that names the
first entry of the flat map that is refused. -/
inductive EndsProperly (policy : Policy) (lock : Lockfile) : Prop
  | planned {made : Plan} : plan policy lock = .ok made → EndsProperly policy lock
  | notFlattened {report : Diagnostic} : lock.normalize = .error (.diagnosed report) →
      EndsProperly policy lock
  | refused {before after : List (String × Package)} {entry : String × Package} {cause : Failure}
      {report : Diagnostic} : lock.normalize = .ok (before ++ entry :: after) →
      Plan.Accepts policy before → Plan.Refuses policy entry cause →
      plan policy lock = .error (.diagnosed report) →
      Ordered.get? "package" report.context = some entry.1 → EndsProperly policy lock

/-- **A URL is come to**: it is the version of a dependency, and all that are visited before have
canonical versions, or it is the URL of an entry of the flat map, and none before is refused. -/
inductive ComesTo (policy : Policy) (lock : Lockfile) (u : Url) : Prop
  | version {before after : List (String × Dependency)} {name : String} {d : Dependency} :
      lock.version = treeVersion →
      preorderAll (lock.dependencies.getD []) = before ++ (name, d) :: after →
      (∀ visited ∈ before, ∃ made, flatEntryOf visited = .ok made) → d.version = .url u →
      ComesTo policy lock u
  | resolved {before after : List (String × Package)} {key : String} {package : Package} :
      lock.normalize = .ok (before ++ (key, package) :: after) → Plan.Accepts policy before →
      key ≠ "" → package.resolved = some (.url u) → ComesTo policy lock u

/-- A lockfile that was read from a document. -/
def Parsed (lock : Lockfile) : Prop :=
  (∃ document, parseText document = .ok lock) ∨ ∃ octets, parseBytes octets = .ok lock

/-- **What planning ends in.** -/
structure Prepared (policy : Policy) (lock : Lockfile) : Prop where
  /-- It ends properly unless a URL is come to that cannot be split. -/
  endsProperly_iff : EndsProperly policy lock ↔
    ∀ u fault, ComesTo policy lock u → u.parts ≠ .error fault
  /-- Such a URL ends planning, with its malformation. -/
  stumbles : ∀ u fault, ComesTo policy lock u → u.parts = .error fault →
    plan policy lock = .error (.malformedUrl fault)
  /-- In a parsed lockfile such a URL was tagged, and hides an authority. -/
  hides : Parsed lock → ∀ u fault, ComesTo policy lock u → u.parts = .error fault →
    ∃ source hidden, Specifier.parse source = .url u ∧ Hides source hidden ∧
      checkAuthority hidden = .error fault

/-! ## Flattening -/

theorem canonicalVersion_of_fault (hversion : d.version = .url u)
    (hparts : u.parts = .error fault) :
    d.canonicalVersion = .error (.malformedUrl fault) := by
  simp only [canonicalVersion, hversion, hparts, mapError_error, bind, Except.bind]

/-- **A lockfile that has no flat map** is of an unknown generation, lacks a repository, or has a
version that cannot be split. -/
theorem normalize_error (policy : Policy) (h : lock.normalize = .error failure) :
    (∃ report, failure = .diagnosed report) ∨
      ∃ u fault, ComesTo policy lock u ∧ u.parts = .error fault := by
  unfold normalize at h
  split at h
  · rename_i hversion
    obtain ⟨before, ⟨name, d⟩, after, hsplit, hbefore, hentry⟩ :=
      mapM_eq_error_iff.1 (flatten_eq_error_iff.1 h)
    have hcanonical := flatEntryOf_eq_error hentry
    cases hspecifier : d.version with
    | other text => simp [canonicalVersion, hspecifier] at hcanonical
    | url u =>
      cases hparts : u.parts with
      | error fault => exact Or.inr ⟨u, fault, .version hversion hsplit hbefore hspecifier, hparts⟩
      | ok parts => exact Or.inl ⟨_, (lacks_of_canonicalVersion hcanonical hspecifier hparts).2⟩
  · split at h
    · cases h
    · cases h
      exact Or.inl ⟨_, rfl⟩

/-- A canonical version that is a URL can be split, or it is what an alias was resolved to. -/
theorem canonicalVersion_url (h : d.canonicalVersion = .ok (.url u)) :
    (∃ parts, u.parts = .ok parts) ∨ d.package.resolved = some (.url u) := by
  obtain ⟨own, parts, _, _, ⟨_, hresolved⟩ | ⟨_, hrewrite⟩⟩ := canonicalVersion_eq_url h
  · exact Or.inr hresolved
  · exact Or.inl (Shorthand.parts_of_rewrite hrewrite)

/-! ## Stumbling -/

theorem plan_of_normalize (policy : Policy) (h : lock.normalize = .ok map) :
    plan policy lock = (Plan.make policy map).result := by
  rw [plan, h]
  rfl

/-- **A URL that is come to and cannot be split** ends planning. -/
theorem plan_of_comesTo (h : ComesTo policy lock u) (hparts : u.parts = .error fault) :
    plan policy lock = .error (.malformedUrl fault) := by
  cases h with
  | @version before after name d hversion hsplit hbefore hspecifier =>
    have hentry : flatEntryOf (name, d) = .error (.malformedUrl fault) := by
      rw [flatEntryOf_eq, canonicalVersion_of_fault hspecifier hparts]
      rfl
    have hflatten : flatten (lock.dependencies.getD []) = .error (.malformedUrl fault) :=
      flatten_eq_error_iff.2 (mapM_eq_error_iff.2 ⟨_, _, _, hsplit, hbefore, hentry⟩)
    rw [plan, normalize, if_pos hversion, hflatten]
    rfl
  | @resolved before after key package hnormalize hbefore hkey hresolved =>
    rw [plan_of_normalize policy hnormalize]
    exact Plan.make_eq_error_iff.2 ⟨before, (key, package), after, _, rfl, hbefore,
      ⟨hkey, u, hresolved, PlannedFetch.plan_of_parts_error hparts⟩, rfl⟩

/-- Planning that ends properly does not end in a malformation. -/
theorem EndsProperly.not_malformed (h : EndsProperly policy lock) :
    plan policy lock ≠ .error (.malformedUrl fault) := by
  intro hplan
  cases h with
  | planned hmade =>
    rw [hplan] at hmade
    cases hmade
  | notFlattened hnormalize =>
    rw [plan, hnormalize] at hplan
    cases hplan
  | refused _ _ _ hreport _ =>
    rw [hplan] at hreport
    cases hreport

/-- **Planning ends properly** if all URLs that are come to can be split. -/
theorem endsProperly_of_splits (h : ∀ u fault, ComesTo policy lock u → u.parts ≠ .error fault) :
    EndsProperly policy lock := by
  cases hnormalize : lock.normalize with
  | error failure =>
    rcases normalize_error policy hnormalize with ⟨report, rfl⟩ | ⟨u, fault, hcomes, hparts⟩
    · exact .notFlattened hnormalize
    · exact absurd hparts (h u fault hcomes)
  | ok map =>
    have hplan := plan_of_normalize policy hnormalize
    cases hmake : (Plan.make policy map).result with
    | ok made => exact .planned (hplan.trans hmake)
    | error failure =>
      obtain ⟨before, ⟨key, package⟩, after, cause, rfl, hbefore, hrefuses, rfl⟩ :=
        Plan.make_eq_error_iff.1 hmake
      obtain ⟨hkey, u, hresolved, hcause⟩ := id hrefuses
      cases hparts : u.parts with
      | error fault => exact absurd hparts (h u fault (.resolved hnormalize hbefore hkey hresolved))
      | ok parts =>
        obtain ⟨report, rfl, hconcerns⟩ := PlannedFetch.plan_error hparts hcause
        refine .refused hnormalize hbefore hrefuses (hplan.trans hmake) ?_
        exact (Diagnostic.get?_attach report "package" key).trans (congrArg some hconcerns)

/-! ## Tagged URLs -/

/-- A specifier that was read from a text. -/
def Read (specifier : Specifier) : Prop := ∃ source, Specifier.parse source = specifier

/-- A package whose specifier, if it has one, was read from a text. -/
def ReadPackage (package : Package) : Prop :=
  ∀ specifier, package.resolved = some specifier → Read specifier

/-- All specifiers of a lockfile were read from texts. -/
structure Tagged (lock : Lockfile) : Prop where
  dependencies : ∀ name d, Occurs (lock.dependencies.getD []) name d →
    Read d.version ∧ ReadPackage d.package
  packages : ∀ entry ∈ lock.packages.getD [], ReadPackage entry.2

theorem readPackage_map (resolved integrity : Option String) :
    ReadPackage ⟨resolved.map Specifier.parse, integrity⟩ := by
  intro specifier hspecifier
  obtain ⟨source, _, hsource⟩ := Option.map_eq_some_iff.1 hspecifier
  exact ⟨source, hsource⟩

theorem HeadMeans.read {fields : List (String × Value)} {version : Specifier}
    (h : HeadMeans fields version package) : Read version ∧ ReadPackage package := by
  cases h
  exact ⟨⟨_, rfl⟩, readPackage_map _ _⟩

theorem MembersMean.entry {members : List (String × Value)} (h : MembersMean members tree)
    (hmem : (name, d) ∈ tree) : ∃ item, EntryMeans item d := by
  induction tree generalizing members with
  | nil => cases hmem
  | cons first rest ih =>
    cases h with
    | cons hentry hrest =>
      rcases List.mem_cons.1 hmem with heq | hmem
      · cases heq
        exact ⟨_, hentry⟩
      · exact ih hrest hmem

theorem SectionMeans.level_of_occurs {section? : Option Value}
    {children : Option (List (String × Dependency))} (h : SectionMeans section? children)
    (hoccurs : Occurs (children.getD []) name d) :
    ∃ value, LevelMeans value (children.getD []) := by
  have hnone : ¬ Occurs [] name d := by
    rintro (hmem | ⟨hmem, _⟩) <;> cases hmem
  cases h with
  | missing => exact absurd hoccurs hnone
  | null => exact absurd hoccurs hnone
  | level hlevel => exact ⟨_, hlevel⟩

/-- What occurs in a tree that a value means was read. -/
theorem read_of_occurs (hoccurs : Occurs tree name d) {value : Value} (h : LevelMeans value tree) :
    Read d.version ∧ ReadPackage d.package := by
  induction hoccurs generalizing value with
  | here hmem =>
    obtain ⟨hmembers⟩ := h
    obtain ⟨_, hhead, _⟩ := hmembers.entry hmem
    exact hhead.read
  | deeper hmem hbelow ih =>
    obtain ⟨hmembers⟩ := h
    obtain ⟨_, _, hsection⟩ := hmembers.entry hmem
    obtain ⟨_, hlevel⟩ := hsection.level_of_occurs hbelow
    exact ih hlevel

theorem readPackage_of_packagesOf {value : Value} (h : packagesOf value = .ok map)
    {entry : String × Package} (hentry : entry ∈ map) : ReadPackage entry.2 := by
  unfold packagesOf at h
  split at h
  · obtain ⟨⟨key, item⟩, _, hitem⟩ := exists_of_mem_mapM h hentry
    obtain ⟨package, hpackage, hsame⟩ := bind_eq_ok_iff.1 hitem
    cases hsame
    unfold packageEntry at hpackage
    split at hpackage
    · obtain ⟨resolved, integrity, _, _, rfl⟩ := packageOf_eq_ok_iff.1 hpackage
      exact readPackage_map resolved integrity
    · cases hpackage
  · cases h

/-- A section that is there was read from a value. -/
theorem section?_eq_ok {α : Type} {read : Value → Except Fault α} {p : Prop} [Decidable p]
    {fields : List (String × Value)} {found : Option α} {a : α}
    (h : (if p then section? name read fields else .ok none) = .ok found) (ha : found = some a) :
    ∃ value, read value = .ok a := by
  subst ha
  split at h
  · unfold section? at h
    split at h
    · cases h
    · cases h
    · obtain ⟨made, hmade, h⟩ := bind_eq_ok_iff.1 h
      cases h
      exact ⟨_, hmade⟩
  · cases h

theorem tagged_of_ofJson {value : Value} (h : ofJson value = .ok lock) : Tagged lock := by
  obtain ⟨fields, version, rfl, hversion⟩ := version_of_ofJson h
  rw [ofJson_object hversion] at h
  obtain ⟨dependencies, hdependencies, h⟩ := bind_eq_ok_iff.1 h
  obtain ⟨packages, hpackages, h⟩ := bind_eq_ok_iff.1 h
  cases h
  constructor
  · intro name d hoccurs
    cases htree : dependencies with
    | none =>
      rw [htree] at hoccurs
      rcases hoccurs with hmem | ⟨hmem, _⟩ <;> cases hmem
    | some tree =>
      obtain ⟨value, hread⟩ := section?_eq_ok hdependencies htree
      rw [htree] at hoccurs
      exact read_of_occurs hoccurs (means_of_treeOf hread)
  · intro entry hentry
    cases hmap : packages with
    | none =>
      rw [hmap] at hentry
      cases hentry
    | some map =>
      obtain ⟨value, hread⟩ := section?_eq_ok hpackages hmap
      rw [hmap] at hentry
      exact readPackage_of_packagesOf hread hentry

theorem tagged_of_parseDecoded {document : List Char} (h : parseDecoded document = .ok lock) :
    Tagged lock := by
  obtain ⟨value, _, h⟩ := bind_eq_ok_iff.1 h
  cases hlock : ofJson value with
  | error fault =>
    rw [hlock] at h
    cases h
  | ok read =>
    rw [hlock] at h
    cases h
    exact tagged_of_ofJson hlock

theorem Parsed.tagged (h : Parsed lock) : Tagged lock := by
  rcases h with ⟨document, h⟩ | ⟨octets, h⟩
  · unfold parseText at h
    split at h
    · split at h
      · cases h
      · exact tagged_of_parseDecoded h
    · exact tagged_of_parseDecoded h
  · unfold parseBytes at h
    split at h
    · cases h
    · exact tagged_of_parseDecoded h

/-- **A URL of the flat map that cannot be split** was tagged: what a shorthand is rewritten to
can be split. -/
theorem read_of_normalize (htagged : Tagged lock) (h : lock.normalize = .ok map)
    {entry : String × Package} (hentry : entry ∈ map) (hresolved : entry.2.resolved = some (.url u))
    (hparts : u.parts = .error fault) : Read (.url u) := by
  unfold normalize at h
  split at h
  · obtain ⟨name, d, version, hoccurs, hversion, rfl⟩ := exists_of_mem_flatten h hentry
    obtain ⟨_, hpackage⟩ := htagged.dependencies name d hoccurs
    cases version with
    | other text => exact hpackage _ hresolved
    | url own =>
      cases hresolved
      rcases canonicalVersion_url hversion with ⟨parts, hok⟩ | halias
      · rw [hok] at hparts
        cases hparts
      · exact hpackage _ halias
  · split at h
    · cases h
      exact htagged.packages entry hentry _ hresolved
    · cases h

/-- A URL that is come to in a parsed lockfile and cannot be split was read from a text. -/
theorem read_of_comesTo (htagged : Tagged lock) (h : ComesTo policy lock u)
    (hparts : u.parts = .error fault) : Read (.url u) := by
  cases h with
  | @version before after name d _ hsplit _ hspecifier =>
    have hvisit : (name, d) ∈ preorderAll (lock.dependencies.getD []) := by
      rw [hsplit]
      exact List.mem_append_right _ List.mem_cons_self
    rw [← hspecifier]
    exact (htagged.dependencies name d (mem_preorderAll_iff.1 hvisit)).1
  | resolved hnormalize _ _ hresolved =>
    exact read_of_normalize htagged hnormalize (List.mem_append_right _ List.mem_cons_self)
      hresolved hparts

/-! ## All lockfiles -/

/-- **What planning ends in, for every policy and every lockfile.** -/
theorem prepared (policy : Policy) (lock : Lockfile) : Prepared policy lock where
  endsProperly_iff := by
    refine ⟨fun h u fault hcomes hparts => ?_, endsProperly_of_splits⟩
    exact h.not_malformed (plan_of_comesTo hcomes hparts)
  stumbles _ _ hcomes hparts := plan_of_comesTo hcomes hparts
  hides hparsed u fault hcomes hparts := by
    obtain ⟨source, hsource⟩ := read_of_comesTo hparsed.tagged hcomes hparts
    obtain ⟨hidden, hhides, hcheck⟩ := (Url.parts_of_tagged hsource).1 hparts
    exact ⟨source, hidden, hsource, hhides, hcheck⟩

/-- A document of one package, whose URL hides an open bracket. -/
def hiddenBracket : String :=
  "\x7b\"lockfileVersion\": 2, " ++
    "\"packages\": \x7b\"a\": \x7b\"resolved\": \"http:////[x\"\x7d\x7d\x7d"

/-- **Not every parsed lockfile is planned properly**: a package whose URL was tagged ends planning
with a malformation that has no report. -/
theorem unreported_hidden_bracket :
    parseText hiddenBracket = .ok ⟨2, none, some [("a", ⟨some (.url ⟨"http://[x"⟩), none⟩)]⟩ ∧
    Specifier.parse "http:////[x" = .url ⟨"http://[x"⟩ ∧
    plan Policy.standard ⟨2, none, some [("a", ⟨some (.url ⟨"http://[x"⟩), none⟩)]⟩ =
      .error (.malformedUrl .brackets) ∧
    ¬ ∀ (policy : Policy) (lock : Lockfile), Parsed lock → EndsProperly policy lock := by
  have hparse : parseText hiddenBracket =
      .ok ⟨2, none, some [("a", ⟨some (.url ⟨"http://[x"⟩), none⟩)]⟩ := by
    -- lockfiles are compared field by field
    have hfields : (parseText hiddenBracket).toOption.map
        (fun lock => (lock.version, lock.dependencies.isNone, lock.packages)) =
          some (2, true, some [("a", ⟨some (.url ⟨"http://[x"⟩), none⟩)]) := by
      decide +kernel
    cases hlock : parseText hiddenBracket with
    | error failure =>
      rw [hlock] at hfields
      cases hfields
    | ok lock =>
      obtain ⟨version, dependencies, packages⟩ := lock
      rw [hlock] at hfields
      simp only [Except.toOption, Option.map_some, Option.some.injEq, Prod.mk.injEq,
        Option.isNone_iff_eq_none] at hfields
      obtain ⟨rfl, rfl, rfl⟩ := hfields
      rfl
  have hplan : plan Policy.standard ⟨2, none, some [("a", ⟨some (.url ⟨"http://[x"⟩), none⟩)]⟩ =
      .error (.malformedUrl .brackets) := by
    decide +kernel
  refine ⟨hparse, by decide, hplan, fun hall => ?_⟩
  exact (hall Policy.standard _ (Or.inl ⟨_, hparse⟩)).not_malformed hplan

end LockPrefetch.Lockfile
