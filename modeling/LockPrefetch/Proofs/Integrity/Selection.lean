import LockPrefetch.Proofs.Run.Reproducing
import LockPrefetch.Proofs.Text.Words

/-! # Which digest is selected

Of several tokens the leftmost one that begins with `sha512-` is selected, and if there is none,
the leftmost one that begins with `sha1-`; a single token is selected whatever it is (`Selected`,
`select_eq_ok_iff`). So content that is declared with a SHA-512 digest among others is verified
against it and against no weaker one, and the tokens beside those that begin with `sha512-` make
no difference to a run (`never_downgraded`). -/

set_option autoImplicit false

namespace LockPrefetch

open FileTree (Action)

namespace Digest

variable {field other token beginning : String} {tokens others : List (List Char)}
  {chosen : List Char}

/-! ## First tokens -/

/-- **The first of some tokens** that has a beginning. -/
def First (beginning : String) (tokens : List (List Char)) (chosen : List Char) : Prop :=
  ∃ before after, tokens = before ++ chosen :: after ∧ beginning.toList <+: chosen ∧
    ∀ earlier ∈ before, ¬ beginning.toList <+: earlier

theorem firstWith_eq_some_iff : firstWith tokens beginning = some chosen ↔
    First beginning tokens chosen := by
  rw [firstWith, List.find?_eq_some_iff_append, First]
  simp only [List.isPrefixOf_iff_prefix, Bool.not_eq_true', Bool.eq_false_iff, ne_eq]
  constructor
  · rintro ⟨hchosen, before, after, rfl, hbefore⟩
    exact ⟨before, after, rfl, hchosen, hbefore⟩
  · rintro ⟨before, after, rfl, hchosen, hbefore⟩
    exact ⟨hchosen, before, after, rfl, hbefore⟩

theorem firstWith_eq_none_iff : firstWith tokens beginning = none ↔
    ∀ chosen ∈ tokens, ¬ beginning.toList <+: chosen := by
  simp [firstWith, List.find?_eq_none]

theorem First.mem (h : First beginning tokens chosen) : chosen ∈ tokens := by
  obtain ⟨before, after, rfl, _, _⟩ := h
  exact List.mem_append_right _ List.mem_cons_self

/-! ## Selected tokens -/

/-- **The token to verify against**: the only one, or the first one of the strongest kind that is
preferred. -/
inductive Selected (tokens : List (List Char)) (chosen : List Char) : Prop
  /-- There is no other token. -/
  | only (h : tokens = [chosen])
  /-- Of several tokens, the first one with a SHA-512 digest. -/
  | strong (hmany : 2 ≤ tokens.length) (h : First "sha512-" tokens chosen)
  /-- Where there is none, the first one with a SHA-1 digest. -/
  | weak (hnone : ∀ token ∈ tokens, ¬ "sha512-".toList <+: token) (h : First "sha1-" tokens chosen)

/-- Of tokens that are not a single one, the preferred ones are asked for in turn. -/
theorem select?_of_many (hspells : Text.Spells field.toList tokens)
    (hmany : ∀ token, tokens ≠ [token]) :
    select? field =
      ((firstWith tokens "sha512-").or (firstWith tokens "sha1-")).map String.ofList := by
  rw [select?, Text.spells_iff.1 hspells]
  split
  · exact absurd rfl (hmany _)
  · simp only [preferred, List.findSome?_cons, List.findSome?_nil]
    cases firstWith tokens "sha512-" <;> cases firstWith tokens "sha1-" <;> rfl

theorem select?_of_single (hspells : Text.Spells field.toList [chosen]) :
    select? field = some (String.ofList chosen) := by
  rw [select?, Text.spells_iff.1 hspells]

/-- Tokens that are several are not a single one. -/
theorem two_le_of_mem (hmany : ∀ token, tokens ≠ [token]) (hmem : chosen ∈ tokens) :
    2 ≤ tokens.length := by
  match tokens with
  | [] => cases hmem
  | [only] => exact absurd rfl (hmany only)
  | _ :: _ :: _ => simp

theorem select?_eq_some_iff (hspells : Text.Spells field.toList tokens) :
    select? field = some token ↔ Selected tokens token.toList := by
  by_cases hmany : ∀ single, tokens ≠ [single]
  · rw [select?_of_many hspells hmany]
    constructor
    · intro h
      obtain ⟨chosen, hchosen, rfl⟩ := Option.map_eq_some_iff.1 h
      rw [String.toList_ofList]
      cases hstrong : firstWith tokens "sha512-" with
      | some strong =>
          rw [hstrong, Option.some_or] at hchosen
          obtain rfl := Option.some.inj hchosen
          have hfirst := firstWith_eq_some_iff.1 hstrong
          exact .strong (two_le_of_mem hmany hfirst.mem) hfirst
      | none =>
          rw [hstrong, Option.none_or] at hchosen
          exact .weak (firstWith_eq_none_iff.1 hstrong) (firstWith_eq_some_iff.1 hchosen)
    · rintro (h | ⟨_, h⟩ | ⟨hnone, h⟩)
      · exact absurd h (hmany _)
      · rw [firstWith_eq_some_iff.2 h]
        simp
      · rw [firstWith_eq_none_iff.2 hnone, firstWith_eq_some_iff.2 h]
        simp
  · obtain ⟨single, hsingle⟩ := not_forall_not.1 hmany
    subst hsingle
    rw [select?_of_single hspells, Option.some.injEq]
    constructor
    · rintro rfl
      rw [String.toList_ofList]
      exact .only rfl
    · rintro (h | ⟨htwo, _⟩ | ⟨_, h⟩)
      · rw [List.singleton_inj.1 h, String.ofList_toList]
      · simp at htwo
      · rw [← List.mem_singleton.1 h.mem, String.ofList_toList]

/-- **A token is selected** exactly if it is the one to verify against. -/
theorem select_eq_ok_iff (hspells : Text.Spells field.toList tokens) :
    select field = .ok token ↔ Selected tokens token.toList := by
  rw [← select?_eq_some_iff hspells, select]
  cases select? field <;> simp

/-- Where there is no token to select, that is what is reported. -/
theorem select_of_none (hspells : Text.Spells field.toList tokens)
    (hnone : ∀ chosen, ¬ Selected tokens chosen) : select field = .error (ambiguous field) := by
  cases hselect : select? field with
  | none => rw [select, hselect]
  | some token => exact absurd ((select?_eq_some_iff hspells).1 hselect) (hnone _)

/-! ## Strong tokens -/

/-- The tokens that begin with `sha512-`, in order. -/
def strongOf (tokens : List (List Char)) : List (List Char) :=
  tokens.filter fun token => "sha512-".toList.isPrefixOf token

theorem first_iff_head : First "sha512-" tokens chosen ↔ (strongOf tokens).head? = some chosen := by
  rw [← firstWith_eq_some_iff, firstWith, strongOf, List.head?_filter]

/-- The first token with a SHA-512 digest is selected, whatever tokens stand beside it. -/
theorem select_of_first (hspells : Text.Spells field.toList tokens)
    (hfirst : First "sha512-" tokens chosen) : select field = .ok (String.ofList chosen) := by
  rw [select_eq_ok_iff hspells, String.toList_ofList]
  by_cases hmany : ∀ single, tokens ≠ [single]
  · exact .strong (two_le_of_mem hmany hfirst.mem) hfirst
  · obtain ⟨single, rfl⟩ := not_forall_not.1 hmany
    rw [← List.mem_singleton.1 hfirst.mem]
    exact .only rfl

/-- What begins with `sha512-` denotes a digest of that function. -/
theorem name_of_strong {d : Digest} (hbegins : "sha512-".toList <+: chosen)
    (hparse : parse (String.ofList chosen) = .ok d) : d.name = "sha512" := by
  obtain ⟨rest, rfl⟩ := hbegins
  have hdash : '-' ∉ "sha512".toList := by decide
  have hname := name_of_parse hparse
  rw [String.toList_ofList, show "sha512-".toList = "sha512".toList ++ ['-'] by decide,
    List.append_assoc, List.singleton_append, Text.cut_append hdash] at hname
  exact String.toList_inj.1 hname

/-- Content with a digest that is declared by such a token has this SHA-512 digest. -/
theorem octets_of_strong {d : Digest} {data : Bytes} (hbegins : "sha512-".toList <+: chosen)
    (hparse : parse (String.ofList chosen) = .ok d) (hof : d.Of data) :
    Hash.Algorithm.sha512.digest data = d.octets := by
  obtain ⟨algorithm, hname, hoctets⟩ := hof
  rw [name_of_strong hbegins hparse] at hname
  have hsha512 : Hash.Algorithm.ofName? "sha512" = some .sha512 :=
    Hash.Algorithm.ofName?_name .sha512
  rw [hsha512] at hname
  obtain rfl := Option.some.inj hname
  exact hoctets.symm

/-! ## Downloads under a strong token -/

variable {policy : Policy} {package : String} {url : Url} {fetch : PlannedFetch} {store : Store}
  {fetcher : Fetcher} {tree after : FileTree} {fetched : FetchedPackage}

/-- **Content that is stored for a strong token** has the SHA-512 digest that the token denotes. -/
theorem verified_of_strong (hselect : select field = .ok (String.ofList chosen))
    (hbegins : "sha512-".toList <+: chosen)
    (hplan : (PlannedFetch.plan policy package url (some field)).result = .ok fetch)
    (hrun : (Run.fetchOne store fetcher fetch).run tree = (.ok fetched, after)) :
    ∃ data digest, fetcher fetch.url = .ok data ∧ parse (String.ofList chosen) = .ok digest ∧
      Hash.Algorithm.sha512.digest data = digest.octets := by
  -- the token that is planned is the one that is selected
  obtain ⟨planned, hplanned, hintegrity⟩ := (PlannedFetch.plan_ok hplan).2.selected field rfl
  obtain rfl : String.ofList chosen = planned := Except.ok.inj (hselect.symm.trans hplanned)
  obtain ⟨data, sri, hdata, hput, _⟩ := Run.fetchOne_ok hrun
  obtain ⟨digest, _, _, hverify, _⟩ := Store.run_put_eq_ok_iff.1 hput
  obtain ⟨hof, hdeclares⟩ := Store.verify_eq_ok_iff.1 hverify
  rw [hintegrity, Store.Declares] at hdeclares
  exact ⟨data, digest, hdata, hdeclares, octets_of_strong hbegins hdeclares hof⟩

/-- A download is planned by what is selected from the declaration. -/
theorem plan_of_same_selection (h : select field = select other) (policy : Policy)
    (package : String) (url : Url) :
    PlannedFetch.plan policy package url (some field) =
      PlannedFetch.plan policy package url (some other) := by
  have hofUrl : ∀ url, PlannedFetch.ofUrl policy package url (some field) =
      PlannedFetch.ofUrl policy package url (some other) := by
    intro url
    simp only [PlannedFetch.ofUrl, Option.mapM_some, h, Policy.checkIntegrity, Option.isNone_some]
  simp only [PlannedFetch.plan, hofUrl]

/-- So is a map with such a declaration in it. -/
theorem make_of_same_selection (h : select field = select other) (policy : Policy)
    (before after : List (String × Package)) (key : String) (resolved : Option Specifier) :
    Plan.make policy (before ++ (key, ⟨resolved, some field⟩) :: after) =
      Plan.make policy (before ++ (key, ⟨resolved, some other⟩) :: after) := by
  induction before with
  | nil => simp only [List.nil_append, Plan.make, plan_of_same_selection h]
  | cons first before ih =>
      rw [List.cons_append, List.cons_append, Plan.make_cons, Plan.make_cons, ih]

/-! ## Main statement -/

/-- **A declaration is never downgraded**, whatever tokens it spells. -/
structure NeverDowngraded (field : String) (tokens : List (List Char)) : Prop where
  /-- The token that is selected is the only one, the first one with a SHA-512 digest, or where
  there is none, the first one with a SHA-1 digest. -/
  selected : ∀ token, select field = .ok token ↔ Selected tokens token.toList
  /-- If there is no such token, the declaration is reported as ambiguous. -/
  refused : (∀ chosen, ¬ Selected tokens chosen) →
    ∃ report, select field = .error report ∧ report.kind = .ambiguousDigest
  /-- Content that is fetched and stored under the declaration has the digest of its first token
  with a SHA-512 digest. -/
  verified : ∀ strong, First "sha512-" tokens strong →
    ∀ policy package url fetch, (PlannedFetch.plan policy package url (some field)).result =
      .ok fetch →
    ∀ (store : Store) fetcher tree fetched after,
      (Run.fetchOne store fetcher fetch).run tree = (.ok fetched, after) →
      ∃ data digest, fetcher fetch.url = .ok data ∧
        parse (String.ofList strong) = .ok digest ∧
        Hash.Algorithm.sha512.digest data = digest.octets
  /-- Another declaration with the same tokens that begin with `sha512-`, in the same order, makes
  no difference: all other tokens may be added, taken away and moved. -/
  unmoved : strongOf tokens ≠ [] → ∀ other others, Text.Spells other.toList others →
    strongOf others = strongOf tokens →
    ∀ policy before after key resolved,
      Plan.make policy (before ++ (key, ⟨resolved, some other⟩) :: after) =
        Plan.make policy (before ++ (key, ⟨resolved, some field⟩) :: after) ∧
      ∀ store fetcher version tree,
        Run.packages store policy fetcher version
            (before ++ (key, ⟨resolved, some other⟩) :: after) tree =
          Run.packages store policy fetcher version
            (before ++ (key, ⟨resolved, some field⟩) :: after) tree

theorem neverDowngraded_of_spells (hspells : Text.Spells field.toList tokens) :
    NeverDowngraded field tokens where
  selected _ := select_eq_ok_iff hspells
  refused hnone := ⟨ambiguous field, select_of_none hspells hnone, rfl⟩
  verified strong hstrong policy package url fetch hplan store fetcher tree fetched after hrun := by
    have hbegins : "sha512-".toList <+: strong := by
      obtain ⟨_, _, _, hbegins, _⟩ := hstrong
      exact hbegins
    exact verified_of_strong (select_of_first hspells hstrong) hbegins hplan hrun
  unmoved hsome other others hothers hsame policy before after key resolved := by
    have hselect : select other = select field := by
      cases hstrong : strongOf tokens with
      | nil => exact absurd hstrong hsome
      | cons strong more =>
          -- both declarations have the same first token with a SHA-512 digest
          have hfield : First "sha512-" tokens strong := first_iff_head.2 (by rw [hstrong]; rfl)
          have hother : First "sha512-" others strong :=
            first_iff_head.2 (by rw [hsame, hstrong]; rfl)
          rw [select_of_first hspells hfield, select_of_first hothers hother]
    have hmake := make_of_same_selection hselect policy before after key resolved
    refine ⟨hmake, fun store fetcher version tree => ?_⟩
    rw [Run.packages, Run.packages, hmake]

/-- **No declaration is downgraded.** Every declaration spells tokens, and no others, and what is
selected of them is never weaker than what they offer. -/
theorem never_downgraded (field : String) :
    ∃ tokens, (∀ others, Text.Spells field.toList others ↔ others = tokens) ∧
      NeverDowngraded field tokens := by
  refine ⟨Text.words field.toList, fun others => ?_, ?_⟩
  · rw [Text.spells_iff, eq_comm]
  · exact neverDowngraded_of_spells (Text.spells_words _)

/-- A declaration with three digests of a letter, the strongest one last, between blanks of
several kinds. -/
def blendedField : String :=
  "\tmd5-kutf/uauL+w61xx3dTFXjw==\u2003" ++ Run.olderToken ++ "\n" ++ Run.newerToken

/-- A package with this declaration is fetched and stored, and has the strongest digest. -/
theorem never_downgraded_blended : ∃ fetch fetched after data digest,
    (PlannedFetch.plan Policy.standard "a" ⟨"https://r/a"⟩ (some blendedField)).result = .ok fetch ∧
      fetch.integrity = some Run.newerToken ∧
      (Run.fetchOne (Store.relative ["out"]) Run.letter fetch).run FileTree.empty =
        (.ok fetched, after) ∧
      parse Run.newerToken = .ok digest ∧ Hash.Algorithm.sha512.digest data = digest.octets := by
  obtain ⟨tokens, hspells, hnever⟩ := never_downgraded blendedField
  have hstrong : First "sha512-" tokens Run.newerToken.toList := by
    rw [first_iff_head, ← (hspells _).1 (Text.spells_words _)]
    decide +kernel
  have hplan : (PlannedFetch.plan Policy.standard "a" ⟨"https://r/a"⟩ (some blendedField)).result =
      .ok ⟨"a", "https://r/a", PlannedFetch.keyFor "https://r/a", some Run.newerToken⟩ := by
    decide +kernel
  obtain ⟨digest, hverify, _⟩ : ∃ digest, Store.verify (PlannedFetch.keyFor "https://r/a")
      "https://r/a" [98] (some Run.newerToken) = .ok digest ∧
        some digest.token = some Run.newerToken :=
    Run.exists_of_token (by decide +kernel) rfl
  obtain ⟨listed, hall⟩ := Run.fetchAll_letter (List.Perm.refl
    [⟨"a", "https://r/a", PlannedFetch.keyFor "https://r/a", some Run.newerToken⟩])
    (List.forall_mem_singleton.2 ⟨[98], digest, rfl, hverify⟩)
  obtain ⟨fetched, after, _, hrun, _⟩ := Run.fetchOne_of_fetchAll hall
  obtain ⟨data, found, _, hparse, hdigest⟩ :=
    hnever.verified _ hstrong _ _ _ _ hplan _ _ _ _ _ hrun
  rw [String.ofList_toList] at hparse
  exact ⟨_, fetched, after, data, found, hplan, rfl, hrun, hparse, hdigest⟩

end Digest

end LockPrefetch
