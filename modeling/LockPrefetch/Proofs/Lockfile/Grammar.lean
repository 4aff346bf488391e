import LockPrefetch.Lockfile.Reader

/-! # The grammar of trees

Which JSON values are trees of dependencies (`WellFormedLevel`), what tree such a value means
(`LevelMeans`), and at which places a value that is none breaks the grammar (`Breaks`). The main
statement, `treeOf_grammar`: the reader accepts the well-formed values and no others, yields the
tree that they mean, and refuses all others for a place at which they break the grammar.

The reader does not follow the structure of a value. It keeps a stack of levels that it has
found, and puts down the entries of a level before it reads the levels below them. Two facts
carry the proof: a level stays as it was put down (`get?_of_readLevels`), so that the numbers in
it lead to what its entries mean once nothing waits any more, and all that waits stands in the
document (`LevelAt`), so that whatever is refused is a part of it. -/

set_option autoImplicit false

namespace LockPrefetch.Lockfile

open Json (Value)

/-! ## The grammar -/

/-- The text of a field that may be missing or null. -/
inductive OptionalText (name : String) (fields : List (String × Value)) : Option String → Prop
  | missing : Ordered.get? name fields = none → OptionalText name fields none
  | null : Ordered.get? name fields = some .null → OptionalText name fields none
  | text {text : String} : Ordered.get? name fields = some (.string text) →
      OptionalText name fields (some text)

/-- The fields of an entry, those below it apart, are as they should be. -/
structure ProperFields (fields : List (String × Value)) : Prop where
  version : ∃ text, Ordered.get? "version" fields = some (.string text)
  resolved : ∃ text, OptionalText "resolved" fields text
  integrity : ∃ text, OptionalText "integrity" fields text

mutual

/-- **A level is well formed** if it is an object all of whose values are. -/
inductive WellFormedLevel : Value → Prop
  | object {members : List (String × Value)} :
      (∀ name item, (name, item) ∈ members → WellFormedEntry item) →
      WellFormedLevel (.object members)

/-- An entry is well formed if it is an object with proper fields and its dependencies, unless
they are missing or null, are a well-formed level. -/
inductive WellFormedEntry : Value → Prop
  | object {fields : List (String × Value)} : ProperFields fields →
      (∀ value, Ordered.get? "dependencies" fields = some value → value ≠ .null →
        WellFormedLevel value) →
      WellFormedEntry (.object fields)

end

/-! ## What a value means -/

/-- What an entry says about itself. -/
inductive HeadMeans (fields : List (String × Value)) : Specifier → Package → Prop
  | intro {version : String} {resolved integrity : Option String} :
      Ordered.get? "version" fields = some (.string version) →
      OptionalText "resolved" fields resolved → OptionalText "integrity" fields integrity →
      HeadMeans fields (Specifier.parse version) ⟨resolved.map Specifier.parse, integrity⟩

mutual

/-- **The tree that a level means**: the same names in the same order, each with what its value
means. -/
inductive LevelMeans : Value → List (String × Dependency) → Prop
  | object {members : List (String × Value)} {tree : List (String × Dependency)} :
      MembersMean members tree → LevelMeans (.object members) tree

/-- What the members of a level mean, one by one. -/
inductive MembersMean : List (String × Value) → List (String × Dependency) → Prop
  | nil : MembersMean [] []
  | cons {name : String} {item : Value} {dependency : Dependency}
      {rest : List (String × Value)} {later : List (String × Dependency)} :
      EntryMeans item dependency → MembersMean rest later →
      MembersMean ((name, item) :: rest) ((name, dependency) :: later)

/-- The dependency that an entry means. -/
inductive EntryMeans : Value → Dependency → Prop
  | object {fields : List (String × Value)} {version : Specifier} {package : Package}
      {children : Option (List (String × Dependency))} :
      HeadMeans fields version package →
      SectionMeans (Ordered.get? "dependencies" fields) children →
      EntryMeans (.object fields) (.node version package children)

/-- What a section of dependencies means; there is none if it is missing or null. -/
inductive SectionMeans : Option Value → Option (List (String × Dependency)) → Prop
  | missing : SectionMeans none none
  | null : SectionMeans (some .null) none
  | level {value : Value} {tree : List (String × Dependency)} :
      LevelMeans value tree → SectionMeans (some value) (some tree)

end

/-! ## Places -/

mutual

/-- The levels of a document and their locations. -/
inductive LevelAt (document : Value) : String → Value → Prop
  | root : LevelAt document "dependencies" document
  | nested {location : String} {fields : List (String × Value)} {value : Value} :
      EntryAt document location (.object fields) →
      Ordered.get? "dependencies" fields = some value → value ≠ .null →
      LevelAt document (below location "dependencies") value

/-- The entries of a document and their locations. -/
inductive EntryAt (document : Value) : String → Value → Prop
  | member {location name : String} {members : List (String × Value)} {item : Value} :
      LevelAt document location (.object members) → (name, item) ∈ members →
      EntryAt document (below location name) item

end

/-- **A document breaks the grammar at a location** if the level there is no object, or if the
entry there is no object with proper fields. What lies below does not count. -/
inductive Breaks (document : Value) : String → Prop
  | level {location : String} {value : Value} : LevelAt document location value →
      (∀ members, value ≠ .object members) → Breaks document location
  | entry {location : String} {item : Value} : EntryAt document location item →
      (∀ fields, item = .object fields → ¬ ProperFields fields) → Breaks document location

/-- A fault whose report is about a location of a lockfile. -/
def Fault.PointsTo (fault : Fault) (location : String) : Prop :=
  fault.diagnostic.kind = .lockfile ∧ fault.diagnostic.context = [("path", location)]

variable {document value item : Value} {location name : String} {next number : Nat}
  {fields members : List (String × Value)} {version : Specifier} {package : Package}
  {tree : List (String × Dependency)} {fault : Fault} {text : Option String}
  {drafts : List (String × Draft)} {opened waiting : List Unread}
  {levels final : Array (List (String × Draft))}

/-! ### Values that mean something are well formed -/

theorem HeadMeans.proper (h : HeadMeans fields version package) : ProperFields fields := by
  obtain ⟨hversion, hresolved, hintegrity⟩ := h
  exact ⟨⟨_, hversion⟩, ⟨_, hresolved⟩, ⟨_, hintegrity⟩⟩

mutual

theorem LevelMeans.wellFormed {value : Value} {tree : List (String × Dependency)} :
    LevelMeans value tree → WellFormedLevel value
  | .object hmembers => .object hmembers.wellFormed

theorem MembersMean.wellFormed {members : List (String × Value)}
    {tree : List (String × Dependency)} :
    MembersMean members tree → ∀ name item, (name, item) ∈ members → WellFormedEntry item
  | .nil, _, _, h => absurd h List.not_mem_nil
  | .cons hentry hrest, name, item, h => by
    rcases List.mem_cons.1 h with heq | hmem
    · cases heq
      exact hentry.wellFormed
    · exact hrest.wellFormed name item hmem

theorem EntryMeans.wellFormed {item : Value} {dependency : Dependency} :
    EntryMeans item dependency → WellFormedEntry item
  | .object hhead hsection => .object hhead.proper fun value hvalue hnull =>
    (hvalue ▸ hsection).wellFormed value rfl hnull

theorem SectionMeans.wellFormed {section? : Option Value}
    {children : Option (List (String × Dependency))} :
    SectionMeans section? children →
      ∀ value, section? = some value → value ≠ .null → WellFormedLevel value
  | .missing, _, h, _ => nomatch h
  | .null, _, h, hnull => absurd (Option.some.inj h).symm hnull
  | .level hlevel, _, h, _ => Option.some.inj h ▸ hlevel.wellFormed

end

/-! ### A value means one thing only -/

theorem OptionalText.unique {other : Option String} (h : OptionalText name fields text)
    (hother : OptionalText name fields other) : text = other := by
  cases h <;> cases hother <;> simp_all

theorem HeadMeans.unique {version' : Specifier} {package' : Package}
    (h : HeadMeans fields version package) (h' : HeadMeans fields version' package') :
    version = version' ∧ package = package' := by
  obtain ⟨hversion, hresolved, hintegrity⟩ := h
  obtain ⟨hversion', hresolved', hintegrity'⟩ := h'
  obtain rfl := hresolved.unique hresolved'
  obtain rfl := hintegrity.unique hintegrity'
  rw [hversion] at hversion'
  cases hversion'
  exact ⟨rfl, rfl⟩

mutual

theorem LevelMeans.unique {value : Value} {tree tree' : List (String × Dependency)} :
    LevelMeans value tree → LevelMeans value tree' → tree = tree'
  | .object h, .object h' => h.unique h'

theorem MembersMean.unique {members : List (String × Value)}
    {tree tree' : List (String × Dependency)} :
    MembersMean members tree → MembersMean members tree' → tree = tree'
  | .nil, .nil => rfl
  | .cons hentry hrest, .cons hentry' hrest' => by
    rw [hentry.unique hentry', hrest.unique hrest']

theorem EntryMeans.unique {item : Value} {dependency dependency' : Dependency} :
    EntryMeans item dependency → EntryMeans item dependency' → dependency = dependency'
  | .object hhead hsection, .object hhead' hsection' => by
    obtain ⟨rfl, rfl⟩ := hhead.unique hhead'
    rw [hsection.unique hsection']

theorem SectionMeans.unique {section? : Option Value}
    {children children' : Option (List (String × Dependency))} :
    SectionMeans section? children → SectionMeans section? children' → children = children'
  | .missing, .missing => rfl
  | .null, .null => rfl
  | .null, .level h => nomatch h
  | .level h, .null => nomatch h
  | .level h, .level h' => congrArg some (h.unique h')

end

/-! ### Everything in a well-formed document is well formed -/

mutual

theorem LevelAt.wellFormed {document value : Value} {location : String}
    (h : WellFormedLevel document) : LevelAt document location value → WellFormedLevel value
  | .root => h
  | .nested hentry hvalue hnull => by
    obtain ⟨_, hbelow⟩ := hentry.wellFormed h
    exact hbelow _ hvalue hnull

theorem EntryAt.wellFormed {document item : Value} {location : String}
    (h : WellFormedLevel document) : EntryAt document location item → WellFormedEntry item
  | .member hlevel hmember => by
    obtain ⟨hmembers⟩ := hlevel.wellFormed h
    exact hmembers _ _ hmember

end

/-- **A document that breaks the grammar somewhere is not well formed.** -/
theorem Breaks.not_wellFormed (h : Breaks document location) : ¬ WellFormedLevel document := by
  intro hdocument
  cases h with
  | level hlevel hobject =>
    obtain ⟨_⟩ := hlevel.wellFormed hdocument
    exact hobject _ rfl
  | entry hentry hproper =>
    obtain ⟨hfields, _⟩ := hentry.wellFormed hdocument
    exact hproper _ rfl hfields

/-! ## Reading one entry -/

theorem textField?_eq_ok_iff :
    textField? name location fields = .ok text ↔ OptionalText name fields text := by
  constructor
  · intro h
    unfold textField? at h
    split at h
    · rename_i hmissing
      cases h
      exact .missing hmissing
    · rename_i hnull
      cases h
      exact .null hnull
    · rename_i found htext
      cases h
      exact .text htext
    · cases h
  · rintro (h | h | h) <;> simp [textField?, h]

/-- A text field is refused for nothing but its value. -/
theorem textField?_eq_error (h : textField? name location fields = .error fault) :
    fault.PointsTo location ∧ ∀ text, ¬ OptionalText name fields text := by
  have hnone : ∀ text, ¬ OptionalText name fields text := by
    intro text htext
    rw [textField?_eq_ok_iff.2 htext] at h
    cases h
  refine ⟨?_, hnone⟩
  unfold textField? at h
  split at h <;> cases h
  exact ⟨rfl, rfl⟩

theorem packageOf_eq_ok_iff : packageOf location fields = .ok package ↔
    ∃ resolved integrity, OptionalText "resolved" fields resolved ∧
      OptionalText "integrity" fields integrity ∧
      package = ⟨resolved.map Specifier.parse, integrity⟩ := by
  simp only [packageOf, bind_eq_ok_iff, textField?_eq_ok_iff, pure, Except.pure, Except.ok.injEq,
    eq_comm (b := package)]
  constructor
  · rintro ⟨resolved, hresolved, integrity, hintegrity, h⟩
    exact ⟨resolved, integrity, hresolved, hintegrity, h⟩
  · rintro ⟨resolved, integrity, hresolved, hintegrity, h⟩
    exact ⟨resolved, hresolved, integrity, hintegrity, h⟩

theorem packageOf_eq_error (h : packageOf location fields = .error fault) :
    fault.PointsTo location ∧ ¬ ProperFields fields := by
  simp only [packageOf, bind_eq_error_iff] at h
  rcases h with h | ⟨resolved, _, h | ⟨integrity, _, h⟩⟩
  · obtain ⟨hpoints, hnone⟩ := textField?_eq_error h
    exact ⟨hpoints, fun hproper => hproper.resolved.elim hnone⟩
  · obtain ⟨hpoints, hnone⟩ := textField?_eq_error h
    exact ⟨hpoints, fun hproper => hproper.integrity.elim hnone⟩
  · cases h

/-- **The head of an entry is what the entry says about itself.** -/
theorem dependencyHead_eq_ok (h : dependencyHead location item = .ok (version, package)) :
    ∃ fields, item = .object fields ∧ HeadMeans fields version package := by
  unfold dependencyHead at h
  split at h
  · rename_i fields
    split at h
    · rename_i written hversion
      obtain ⟨found, hfound, h⟩ := bind_eq_ok_iff.1 h
      obtain ⟨resolved, integrity, hresolved, hintegrity, rfl⟩ := packageOf_eq_ok_iff.1 hfound
      cases h
      exact ⟨fields, rfl, hversion, hresolved, hintegrity⟩
    · cases h
  · cases h

/-- **An entry is refused for its location**, and only if its own fields are not proper. -/
theorem dependencyHead_eq_error (h : dependencyHead location item = .error fault) :
    fault.PointsTo location ∧ ∀ fields, item = .object fields → ¬ ProperFields fields := by
  unfold dependencyHead at h
  split at h
  · rename_i fields
    split at h
    · rcases bind_eq_error_iff.1 h with hfound | ⟨_, _, hnothing⟩
      · obtain ⟨hpoints, hproper⟩ := packageOf_eq_error hfound
        refine ⟨hpoints, ?_⟩
        rintro _ ⟨⟩
        exact hproper
      · cases hnothing
    · rename_i hversion
      cases h
      refine ⟨⟨rfl, rfl⟩, ?_⟩
      rintro _ ⟨⟩ hproper
      obtain ⟨written, hwritten⟩ := hproper.version
      exact hversion written hwritten
  · rename_i hobject
    cases h
    exact ⟨⟨rfl, rfl⟩, fun fields hfields => absurd hfields (hobject fields)⟩

theorem section_of_nested?_none (h : nested? (.object fields) = none) :
    SectionMeans (Ordered.get? "dependencies" fields) none := by
  simp only [nested?] at h
  split at h
  · rename_i hmissing
    rw [hmissing]
    exact .missing
  · rename_i hnull
    rw [hnull]
    exact .null
  · cases h

theorem section_of_nested? (h : nested? (.object fields) = some value) :
    Ordered.get? "dependencies" fields = some value ∧ value ≠ .null := by
  simp only [nested?] at h
  split at h
  · cases h
  · cases h
  · rename_i hnull hvalue
    cases h
    exact ⟨hvalue, hnull⟩

/-! ## Reading one level -/

/-- An entry that has been put down, with the tree of the level that it refers to. -/
def settled (levels : Array (List (String × Draft))) (number : Nat) (entry : String × Draft) :
    String × Dependency :=
  (entry.1, .node entry.2.version entry.2.package (entry.2.level?.map fun deeper =>
    if number < deeper then treeAt levels deeper else []))

theorem treeAt_eq (h : levels[number]? = some drafts) :
    treeAt levels number = drafts.map (settled levels number) := by
  rw [treeAt]
  split
  · rename_i hnone
    rw [h] at hnone
    cases hnone
  · rename_i found hfound
    rw [h] at hfound
    cases hfound
    rfl

/-- **The entries of a level mean what its members mean**, once the levels that they have opened
hold what these mean. -/
theorem members_of_draftsOf (h : draftsOf location next members = .ok (drafts, opened))
    (hnumber : number < next)
    (hopened : ∀ deeper ∈ opened, LevelMeans deeper.value (treeAt levels deeper.number)) :
    MembersMean members (drafts.map (settled levels number)) := by
  induction members generalizing next drafts opened with
  | nil =>
    cases h
    exact .nil
  | cons member rest ih =>
    obtain ⟨name, item⟩ := member
    simp only [draftsOf, bind_eq_ok_iff] at h
    obtain ⟨⟨version, package⟩, hhead, h⟩ := h
    obtain ⟨fields, rfl, hmeans⟩ := dependencyHead_eq_ok hhead
    cases hnested : nested? (.object fields) with
    | none =>
      simp only [hnested, bind_eq_ok_iff] at h
      obtain ⟨⟨later, more⟩, hrest, h⟩ := h
      cases h
      exact .cons (.object hmeans (section_of_nested?_none hnested)) (ih hrest hnumber hopened)
    | some value =>
      simp only [hnested, bind_eq_ok_iff] at h
      obtain ⟨⟨later, more⟩, hrest, h⟩ := h
      cases h
      have hlevel := hopened _ List.mem_cons_self
      have hlater := ih hrest (Nat.lt_succ_of_lt hnumber) fun deeper hdeeper =>
        hopened deeper (List.mem_cons_of_mem _ hdeeper)
      refine .cons (.object hmeans ?_) hlater
      rw [(section_of_nested? hnested).1]
      simpa [hnumber] using SectionMeans.level hlevel

/-- The levels that a level opens are numbered one after another. -/
theorem numbers_of_draftsOf (h : draftsOf location next members = .ok (drafts, opened)) :
    opened.map Unread.number = List.range' next opened.length := by
  induction members generalizing next drafts opened with
  | nil =>
    cases h
    rfl
  | cons member rest ih =>
    obtain ⟨name, item⟩ := member
    simp only [draftsOf, bind_eq_ok_iff] at h
    obtain ⟨_, _, h⟩ := h
    split at h
    · obtain ⟨⟨later, more⟩, hrest, h⟩ := bind_eq_ok_iff.1 h
      cases h
      exact ih hrest
    · obtain ⟨⟨later, more⟩, hrest, h⟩ := bind_eq_ok_iff.1 h
      cases h
      simp [List.range'_succ, ih hrest]

/-- What a level opens stands in the document. -/
theorem levelAt_of_draftsOf (h : draftsOf location next members = .ok (drafts, opened))
    (hmembers : ∀ name item, (name, item) ∈ members →
      EntryAt document (below location name) item) :
    ∀ deeper ∈ opened, LevelAt document deeper.location deeper.value := by
  induction members generalizing next drafts opened with
  | nil =>
    cases h
    simp
  | cons member rest ih =>
    obtain ⟨name, item⟩ := member
    have hentry := hmembers name item List.mem_cons_self
    have hothers : ∀ other item, (other, item) ∈ rest →
        EntryAt document (below location other) item :=
      fun other item hitem => hmembers other item (List.mem_cons_of_mem _ hitem)
    simp only [draftsOf, bind_eq_ok_iff] at h
    obtain ⟨⟨version, package⟩, hhead, h⟩ := h
    obtain ⟨fields, rfl, _⟩ := dependencyHead_eq_ok hhead
    cases hnested : nested? (.object fields) with
    | none =>
      simp only [hnested, bind_eq_ok_iff] at h
      obtain ⟨⟨later, more⟩, hrest, h⟩ := h
      cases h
      exact ih hrest hothers
    | some value =>
      simp only [hnested, bind_eq_ok_iff] at h
      obtain ⟨⟨later, more⟩, hrest, h⟩ := h
      cases h
      obtain ⟨hvalue, hnull⟩ := section_of_nested? hnested
      intro deeper hdeeper
      rcases List.mem_cons.1 hdeeper with rfl | hmore
      · exact .nested hentry hvalue hnull
      · exact ih hrest hothers deeper hmore

/-- **A level is refused for an entry of its own** that breaks the grammar. -/
theorem breaks_of_draftsOf (h : draftsOf location next members = .error fault)
    (hmembers : ∀ name item, (name, item) ∈ members →
      EntryAt document (below location name) item) :
    ∃ place, fault.PointsTo place ∧ Breaks document place := by
  induction members generalizing next with
  | nil => cases h
  | cons member rest ih =>
    obtain ⟨name, item⟩ := member
    have hothers : ∀ other item, (other, item) ∈ rest →
        EntryAt document (below location other) item :=
      fun other item hitem => hmembers other item (List.mem_cons_of_mem _ hitem)
    simp only [draftsOf, bind_eq_error_iff] at h
    rcases h with hhead | ⟨_, _, h⟩
    · obtain ⟨hpoints, hproper⟩ := dependencyHead_eq_error hhead
      exact ⟨_, hpoints, .entry (hmembers name item List.mem_cons_self) hproper⟩
    · split at h
      all_goals
        rcases bind_eq_error_iff.1 h with hrest | ⟨_, _, hnothing⟩
        · exact ih hrest hothers
        · cases hnothing

/-! ## Reading all levels -/

theorem size_putDown (opened : Nat) :
    (putDown levels number drafts opened).size = levels.size + opened := by
  simp [putDown]

theorem get?_putDown_self (h : number < levels.size) (opened : Nat) :
    (putDown levels number drafts opened)[number]? = some drafts := by
  simp [putDown, Array.getElem?_append, h]

theorem get?_putDown_of_ne {other : Nat} (hother : other < levels.size) (hne : number ≠ other)
    (opened : Nat) : (putDown levels number drafts opened)[other]? = levels[other]? := by
  simp [putDown, Array.getElem?_append, hother, hne]

/-- Each level that waits has a number of its own, under which something has been put down. -/
structure Orderly (levels : Array (List (String × Draft))) (waiting : List Unread) : Prop where
  lt_size : ∀ next ∈ waiting, next.number < levels.size
  nodup : (waiting.map Unread.number).Nodup

theorem Orderly.step {first : Unread} (h : Orderly levels (first :: waiting))
    (hdrafts : draftsOf location levels.size members = .ok (drafts, opened)) :
    Orderly (putDown levels first.number drafts opened.length) (opened.reverse ++ waiting) := by
  have hnumbers := numbers_of_draftsOf hdrafts
  have hlt : ∀ next ∈ waiting, next.number < levels.size :=
    fun next hnext => h.lt_size next (List.mem_cons_of_mem _ hnext)
  constructor
  · intro next hnext
    rw [size_putDown]
    rcases List.mem_append.1 hnext with hopened | hwaiting
    · have : next.number ∈ opened.map Unread.number :=
        List.mem_map_of_mem (List.mem_reverse.1 hopened)
      rw [hnumbers, List.mem_range'_1] at this
      exact this.2
    · exact Nat.lt_add_right _ (hlt next hwaiting)
  · rw [List.map_append, List.map_reverse, hnumbers]
    refine List.nodup_append.2 ⟨(List.reverse_perm _).nodup_iff.2 List.nodup_range', ?_, ?_⟩
    · exact (List.nodup_cons.1 h.nodup).2
    · intro number hnumber other hother
      obtain ⟨next, hnext, rfl⟩ := List.mem_map.1 hother
      have := (List.mem_range'_1.1 (List.mem_reverse.1 hnumber)).1
      have := hlt next hnext
      omega

/-- **A level stays as it was put down**, unless it is still to be read. -/
theorem get?_of_readLevels (h : Orderly levels waiting)
    (hread : readLevels levels waiting = .ok final) (hnumber : number < levels.size)
    (hwaiting : number ∉ waiting.map Unread.number) : final[number]? = levels[number]? := by
  fun_induction readLevels levels waiting with
  | case1 levels =>
    cases hread
    rfl
  | case2 => cases hread
  | case3 levels first members location waiting drafts opened hdrafts ih =>
    simp only [List.map_cons, List.mem_cons, not_or] at hwaiting
    have hopened : number ∉ opened.map Unread.number := by
      rw [numbers_of_draftsOf hdrafts, List.mem_range'_1]
      omega
    rw [ih (h.step hdrafts) hread (by rw [size_putDown]; omega)
      (by simpa using ⟨by simpa using hopened, by simpa using hwaiting.2⟩)]
    exact get?_putDown_of_ne hnumber (Ne.symm hwaiting.1) _
  | case4 => cases hread

/-- **Every level that waits is read**: its number leads to what it means. -/
theorem means_of_readLevels (h : Orderly levels waiting)
    (hread : readLevels levels waiting = .ok final) :
    ∀ next ∈ waiting, LevelMeans next.value (treeAt final next.number) := by
  fun_induction readLevels levels waiting with
  | case1 => simp
  | case2 => cases hread
  | case3 levels first members location waiting drafts opened hdrafts ih =>
    have hlater := ih (h.step hdrafts) hread
    have hfirst : first < levels.size := h.lt_size _ List.mem_cons_self
    have hkept : final[first]? = some drafts := by
      have hopened : first ∉ opened.map Unread.number := by
        rw [numbers_of_draftsOf hdrafts, List.mem_range'_1]
        omega
      have hwaiting : first ∉ waiting.map Unread.number := (List.nodup_cons.1 h.nodup).1
      rw [get?_of_readLevels (h.step hdrafts) hread (by rw [size_putDown]; omega)
        (by simpa using ⟨by simpa using hopened, by simpa using hwaiting⟩)]
      exact get?_putDown_self hfirst _
    intro next hnext
    rcases List.mem_cons.1 hnext with rfl | hwaiting
    · rw [treeAt_eq hkept]
      refine .object (members_of_draftsOf hdrafts hfirst fun deeper hdeeper => ?_)
      exact hlater deeper (by simp [hdeeper])
    · exact hlater next (by simp [hwaiting])
  | case4 => cases hread

/-- **A document is refused for a place at which it breaks the grammar**, if all that waits
stands in it. -/
theorem breaks_of_readLevels (hread : readLevels levels waiting = .error fault)
    (h : ∀ next ∈ waiting, LevelAt document next.location next.value) :
    ∃ place, fault.PointsTo place ∧ Breaks document place := by
  fun_induction readLevels levels waiting with
  | case1 => cases hread
  | case2 levels first members location waiting other hdrafts =>
    cases hread
    have hlevel := h _ List.mem_cons_self
    exact breaks_of_draftsOf hdrafts fun name item hitem => .member hlevel hitem
  | case3 levels first members location waiting drafts opened hdrafts ih =>
    refine ih hread fun next hnext => ?_
    have hlevel := h _ List.mem_cons_self
    rcases List.mem_append.1 hnext with hopened | hwaiting
    · exact levelAt_of_draftsOf hdrafts (fun name item hitem => .member hlevel hitem) next
        (List.mem_reverse.1 hopened)
    · exact h next (List.mem_cons_of_mem _ hwaiting)
  | case4 levels first waiting hobject =>
    cases hread
    refine ⟨_, ⟨rfl, rfl⟩, .level (h _ List.mem_cons_self) fun members hvalue => ?_⟩
    exact hobject first.number members first.location (by rw [← hvalue])

/-! ## Trees -/

theorem orderly_start (document : Value) :
    Orderly #[[]] [⟨0, document, "dependencies"⟩] :=
  ⟨by simp, by simp⟩

theorem means_of_treeOf (h : treeOf document = .ok tree) : LevelMeans document tree := by
  obtain ⟨levels, hread, h⟩ := bind_eq_ok_iff.1 h
  cases h
  exact means_of_readLevels (orderly_start document) hread _ List.mem_cons_self

theorem breaks_of_treeOf (h : treeOf document = .error fault) :
    ∃ place, fault.PointsTo place ∧ Breaks document place := by
  rcases bind_eq_error_iff.1 h with hread | ⟨_, _, hnothing⟩
  · refine breaks_of_readLevels hread fun next hnext => ?_
    rw [List.mem_singleton.1 hnext]
    exact .root
  · cases hnothing

theorem treeOf_of_wellFormed (h : WellFormedLevel document) :
    ∃ tree, treeOf document = .ok tree := by
  cases hread : treeOf document with
  | ok tree => exact ⟨tree, rfl⟩
  | error fault =>
    obtain ⟨_, _, hbreaks⟩ := breaks_of_treeOf hread
    exact absurd h hbreaks.not_wellFormed

/-- **The reader of trees accepts exactly its grammar.** It yields a tree if and only if the value
means that tree, and there is one exactly for the well-formed values. Any other value is refused
with the location of a level or an entry that itself breaks the grammar. -/
theorem treeOf_grammar (document : Value) :
    ((∃ tree, treeOf document = .ok tree) ↔ WellFormedLevel document) ∧
    (∀ tree, treeOf document = .ok tree ↔ LevelMeans document tree) ∧
    (¬ WellFormedLevel document → ∃ fault location, treeOf document = .error fault ∧
      fault.PointsTo location ∧ Breaks document location) := by
  refine ⟨⟨?_, treeOf_of_wellFormed⟩, fun tree => ⟨means_of_treeOf, ?_⟩, fun hill => ?_⟩
  · rintro ⟨tree, htree⟩
    exact (means_of_treeOf htree).wellFormed
  · intro hmeans
    obtain ⟨read, hread⟩ := treeOf_of_wellFormed hmeans.wellFormed
    rw [hread, (means_of_treeOf hread).unique hmeans]
  · cases hread : treeOf document with
    | ok tree => exact absurd (means_of_treeOf hread).wellFormed hill
    | error fault =>
      obtain ⟨location, hpoints, hbreaks⟩ := breaks_of_treeOf hread
      exact ⟨fault, location, rfl, hpoints, hbreaks⟩

/-- A tree in which a dependency of a dependency resolves to a number. -/
def resolvedToNumber : Value :=
  .object [("a", .object [("version", .string "1"), ("dependencies",
    .object [("b", .object [("version", .string "2"), ("resolved", .integer 5)])])])]

theorem treeOf_grammar_number :
    ¬ WellFormedLevel resolvedToNumber ∧
    ∃ fault location, treeOf resolvedToNumber = .error fault ∧ fault.PointsTo location ∧
      Breaks resolvedToNumber location := by
  have hlevel : LevelAt resolvedToNumber (below (below "dependencies" "a") "dependencies")
      (.object [("b", .object [("version", .string "2"), ("resolved", .integer 5)])]) :=
    .nested (.member .root List.mem_cons_self) rfl nofun
  have hbreaks : Breaks resolvedToNumber
      (below (below (below "dependencies" "a") "dependencies") "b") := by
    refine .entry (.member hlevel List.mem_cons_self) ?_
    rintro _ ⟨⟩ ⟨_, ⟨_, hresolved⟩, _⟩
    rcases hresolved with h | h | h <;> cases h
  exact ⟨hbreaks.not_wellFormed, (treeOf_grammar resolvedToNumber).2.2 hbreaks.not_wellFormed⟩

example : treeOf resolvedToNumber =
    .error (.badField "resolved" "dependencies.a.dependencies.b") := by
  cbv

end LockPrefetch.Lockfile
