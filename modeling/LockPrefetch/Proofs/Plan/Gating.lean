import LockPrefetch.Proofs.Planning

/-! # What a policy decides

A policy only decides whether a map may be planned. The plan itself is the one that the most
lenient policy makes, and it is made exactly if each download that the map asks for is admitted
(`make_eq_ok_iff_admits`). So a policy that is no stricter makes the same plan, and the number of
workers is never looked at. Besides, a policy may warn: of each mutable ref that it lets pass, in
the order of the map (`gates`). -/

set_option autoImplicit false

namespace LockPrefetch

variable {policy other strict lax : Policy} {package ref : String} {url : Url}
  {integrity : Option String} {fetch : PlannedFetch} {map : List (String × Package)} {made : Plan}

/-! ## Rules -/

namespace Policy

/-- **A ref names a commit** in full: forty characters that are digits or letters from `a` to
`f`. -/
def NamesCommit (ref : String) : Prop :=
  ref.toList.length = 40 ∧ ∀ c ∈ ref.toList, ('0' ≤ c ∧ c ≤ '9') ∨ ('a' ≤ c ∧ c ≤ 'f')

theorem isCommit_iff : isCommit ref = true ↔ NamesCommit ref := by
  simp [isCommit, NamesCommit]

instance (ref : String) : Decidable (NamesCommit ref) := decidable_of_iff _ isCommit_iff

/-- A mode that is known. -/
def RefMode.Known (mode : RefMode) : Prop := mode = .warn ∨ mode = .refuse ∨ mode = .allow

/-- **A policy is no stricter** than another: what it asks for the other asks for, too. -/
structure NoStricter (lax strict : Policy) : Prop where
  requireIntegrity : lax.requireIntegrity = true → strict.requireIntegrity = true
  refMode : lax.refMode = .refuse → strict.refMode = .refuse

/-- The policy that lets everything pass without a word. -/
def lenient : Policy := { standard with refMode := .allow }

/-- A ref that a policy lets pass. -/
def Permits (policy : Policy) (ref : String) : Prop :=
  NamesCommit ref ∨ policy.refMode = .warn ∨ policy.refMode = .allow

/-- Where mutable refs are refused, only commits pass. -/
theorem Permits.namesCommit (h : policy.Permits ref) (hmode : policy.refMode = .refuse) :
    NamesCommit ref := by
  rcases h with hcommit | hwarn | hallow
  · exact hcommit
  · cases hmode.symm.trans hwarn
  · cases hmode.symm.trans hallow

/-- The warnings that a policy gives about a ref. -/
def warningsOn (policy : Policy) (package ref : String) : List String :=
  if policy.refMode = .warn ∧ ¬ NamesCommit ref then [refWarning package ref] else []

theorem checkRef_ok {warnings : List String} (h : policy.checkRef package ref = .ok warnings) :
    policy.Permits ref ∧ warnings = policy.warningsOn package ref := by
  unfold checkRef at h
  split at h
  · rename_i hcommit
    cases h
    have hnames := isCommit_iff.1 hcommit
    exact ⟨Or.inl hnames, (if_neg fun hwarn => hwarn.2 hnames).symm⟩
  · rename_i hcommit
    split at h
    · rename_i hmode
      cases h
      refine ⟨Or.inr (Or.inr hmode), (if_neg fun hwarn => ?_).symm⟩
      rw [hmode] at hwarn
      cases hwarn.1
    · rename_i hmode
      cases h
      refine ⟨Or.inr (Or.inl hmode), (if_pos ⟨hmode, fun hnames => ?_⟩).symm⟩
      exact hcommit (isCommit_iff.2 hnames)
    · cases h
    · cases h

theorem checkRef_error {report : Diagnostic} (h : policy.checkRef package ref = .error report) :
    ¬ policy.Permits ref ∧ policy.warningsOn package ref = [] := by
  unfold checkRef at h
  split at h
  · cases h
  · rename_i hcommit
    have hnames : ¬ NamesCommit ref := fun hnames => hcommit (isCommit_iff.2 hnames)
    split at h
    · cases h
    · cases h
    · rename_i hmode
      simp [Permits, warningsOn, hmode, hnames]
    · rename_i text hmode
      simp [Permits, warningsOn, hmode, hnames]

end Policy

/-! ## One download -/

namespace PlannedFetch

/-- The URL that is downloaded: that of the archive, if there is one. -/
def target (url : Url) (archive? : Option HostedArchive) : Url :=
  (archive?.map HostedArchive.url).getD url

/-- **A download is planned** exactly if its URL can be split, policy has nothing against it, and
a digest can be selected from what is declared. -/
theorem plan_eq_ok_iff : (plan policy package url integrity).result = .ok fetch ↔
    ∃ archive?, HostedArchive.ofUrl? url = .ok archive? ∧
      (∀ archive, archive? = some archive → policy.Permits archive.ref) ∧
      (policy.requireIntegrity = true → integrity.isSome = true) ∧
      MadeOf package (target url archive?) integrity fetch := by
  unfold plan
  cases harchive : HostedArchive.ofUrl? url with
  | error fault => simp
  | ok archive? =>
      simp only [Except.ok.injEq, exists_eq_left']
      cases archive? with
      | none =>
          rw [ofUrl_eq_ok_iff]
          exact ⟨fun h => ⟨nofun, h⟩, fun h => h.2⟩
      | some archive =>
          simp only [Option.some.injEq, forall_eq']
          cases hcheck : policy.checkRef package archive.ref with
          | error report =>
              have hnot := (Policy.checkRef_error hcheck).1
              exact ⟨nofun, fun h => absurd h.1 hnot⟩
          | ok warnings =>
              have hpermits := (Policy.checkRef_ok hcheck).1
              rw [ofUrl_eq_ok_iff]
              exact ⟨fun h => ⟨hpermits, h⟩, fun h => h.2⟩

end PlannedFetch

/-! ## Admitting downloads -/

namespace Plan

variable {wanted : Wanted}

/-- **A policy admits a download** that is asked for: a digest is declared where one is required,
and the ref of a hosted remote is one that it lets pass. -/
def Admits (policy : Policy) (wanted : Wanted) : Prop :=
  (policy.requireIntegrity = true → wanted.integrity.isSome = true) ∧
    ∀ archive, HostedArchive.ofUrl? wanted.url = .ok (some archive) → policy.Permits archive.ref

theorem admits_lenient (wanted : Wanted) : Admits Policy.lenient wanted :=
  ⟨nofun, fun _ _ => Or.inr (Or.inr rfl)⟩

/-- What is planned is the same for all policies that admit it. -/
theorem plan_of_admits (h : Admits lax wanted) (hplan : (wanted.plan strict).result = .ok fetch) :
    (wanted.plan lax).result = .ok fetch := by
  obtain ⟨archive?, harchive, _, _, hmade⟩ := PlannedFetch.plan_eq_ok_iff.1 hplan
  refine PlannedFetch.plan_eq_ok_iff.2 ⟨archive?, harchive, ?_, h.1, hmade⟩
  rintro archive rfl
  exact h.2 archive harchive

theorem admits_of_plan (h : (wanted.plan policy).result = .ok fetch) : Admits policy wanted := by
  obtain ⟨archive?, harchive, hpermits, hrequired, _⟩ := PlannedFetch.plan_eq_ok_iff.1 h
  refine ⟨hrequired, fun archive hsome => hpermits archive ?_⟩
  rw [harchive] at hsome
  exact Except.ok.inj hsome

/-- **A map is planned** exactly if each download is admitted and it is planned under the most
lenient policy, and then the plan is the same. -/
theorem make_eq_ok_iff_admits : (make policy map).result = .ok made ↔
    (∀ wanted ∈ wantedOf map, Admits policy wanted) ∧
      (make Policy.lenient map).result = .ok made := by
  rw [make_eq_ok_iff, make_eq_ok_iff, ← and_assoc, ← List.forall₂_and_left]
  refine and_congr_left' ⟨fun h => h.imp fun wanted fetch hplan => ?_,
    fun h => h.imp fun wanted fetch hplan => ?_⟩
  · exact ⟨admits_of_plan hplan, plan_of_admits (admits_lenient wanted) hplan⟩
  · exact plan_of_admits hplan.1 hplan.2

theorem Admits.of_noStricter (hknown : lax.refMode.Known) (h : lax.NoStricter strict)
    (hadmits : Admits strict wanted) : Admits lax wanted := by
  refine ⟨fun hrequire => hadmits.1 (h.requireIntegrity hrequire), fun archive harchive => ?_⟩
  rcases hknown with hwarn | hrefuse | hallow
  · exact Or.inr (Or.inl hwarn)
  · -- then the stricter policy refuses mutable refs, too
    exact Or.inl ((hadmits.2 archive harchive).namesCommit (h.refMode hrefuse))
  · exact Or.inr (Or.inr hallow)

/-! ## Warnings -/

/-- The package and the ref of a download from a hosted remote that does not name a commit. -/
def mutableRef? (wanted : Wanted) : Option (String × String) :=
  match HostedArchive.ofUrl? wanted.url with
  | .ok (some archive) =>
    if Policy.NamesCommit archive.ref then none else some (wanted.package, archive.ref)
  | _ => none

/-- **The mutable refs of a map**, each with its package, in the order of the map. -/
def mutableRefs (map : List (String × Package)) : List (String × String) :=
  (wantedOf map).filterMap mutableRef?

/-- The warning about a package and its ref. -/
def warningOf (entry : String × String) : String := Policy.refWarning entry.1 entry.2

theorem warnings_plan (policy : Policy) (wanted : Wanted) :
    (wanted.plan policy).warnings =
      if policy.refMode = .warn then (mutableRef? wanted).toList.map warningOf else [] := by
  unfold Wanted.plan PlannedFetch.plan mutableRef?
  cases HostedArchive.ofUrl? wanted.url with
  | error fault => simp
  | ok archive? =>
      cases archive? with
      | none => simp
      | some archive =>
          dsimp only
          have hwarnings : policy.warningsOn wanted.package archive.ref =
              if policy.refMode = .warn then
                (if Policy.NamesCommit archive.ref then none
                  else some (wanted.package, archive.ref)).toList.map warningOf
              else [] := by
            unfold Policy.warningsOn
            by_cases hmode : policy.refMode = .warn <;>
              by_cases hcommit : Policy.NamesCommit archive.ref <;>
                simp [hmode, hcommit, warningOf]
          cases hcheck : policy.checkRef wanted.package archive.ref with
          | error report =>
              have hnone := (Policy.checkRef_error hcheck).2
              rw [hwarnings] at hnone
              exact hnone.symm
          | ok warnings =>
              have hsome := (Policy.checkRef_ok hcheck).2
              rw [hwarnings] at hsome
              exact hsome

/-- The warnings of a map are those of its downloads, as far as planning comes. -/
theorem warnings_make (policy : Policy) (map : List (String × Package)) :
    (make policy map).warnings <+:
        (wantedOf map).flatMap (fun wanted => (wanted.plan policy).warnings) ∧
      ∀ made, (make policy map).result = .ok made → (make policy map).warnings =
        (wantedOf map).flatMap fun wanted => (wanted.plan policy).warnings := by
  induction map with
  | nil => exact ⟨List.prefix_rfl, fun _ _ => rfl⟩
  | cons entry rest ih =>
      obtain ⟨hfront, hequal⟩ := ih
      rw [make_cons, wantedOf, List.filterMap_cons, ← wantedOf]
      cases Task.of entry with
      | leaveOut => exact ⟨hfront, hequal⟩
      | skip key =>
          refine ⟨hfront, fun made hmade => ?_⟩
          obtain ⟨later, hlater, _⟩ := map_eq_ok_iff.1 hmade
          exact hequal later hlater
      | download wanted =>
          simp only [Task.wanted?, List.flatMap_cons]
          cases wanted.plan policy with
          | mk result warnings =>
              cases result with
              | error failure =>
                  -- planning ends here, and with it the warnings
                  refine ⟨List.prefix_append _ _, fun made hmade => ?_⟩
                  cases hmade
              | ok fetch =>
                  refine ⟨List.prefix_append_right_inj _ |>.2 hfront, fun made hmade => ?_⟩
                  obtain ⟨later, hlater, _⟩ := map_eq_ok_iff.1 hmade
                  exact congrArg (warnings ++ ·) (hequal later hlater)

/-- Where mutable refs are let pass or refused, there are no warnings, plan or not. -/
theorem warnings_of_quiet (hmode : policy.refMode = .allow ∨ policy.refMode = .refuse) :
    (make policy map).warnings = [] := by
  have hnone : policy.refMode ≠ .warn := by
    rintro hwarn
    rw [hwarn] at hmode
    rcases hmode with hmode | hmode <;> cases hmode
  have hfront := (warnings_make policy map).1
  have hempty : (wantedOf map).flatMap (fun wanted => (wanted.plan policy).warnings) = [] := by
    simp [warnings_plan, hnone]
  rw [hempty] at hfront
  exact List.prefix_nil.1 hfront

/-! ## Gates -/

/-- A policy is read for what it requires and for its mode alone. -/
theorem make_congr (hrequire : other.requireIntegrity = policy.requireIntegrity)
    (hmode : other.refMode = policy.refMode) (map : List (String × Package)) :
    make other map = make policy map := by
  have hplan : ∀ wanted : Wanted, wanted.plan other = wanted.plan policy := by
    intro wanted
    simp only [Wanted.plan, PlannedFetch.plan, PlannedFetch.ofUrl, Policy.checkRef,
      Policy.checkIntegrity, hrequire, hmode]
  induction map with
  | nil => rfl
  | cons entry rest ih => simp only [make_cons, hplan, ih]

/-- **A policy only gates the planning of a map.** -/
structure Gates (map : List (String × Package)) : Prop where
  /-- What is planned under a policy is planned in the same way under one that is no stricter,
  whatever the numbers of workers. -/
  laxer : ∀ strict lax : Policy, lax.refMode.Known → lax.NoStricter strict →
    ∀ made, (make strict map).result = .ok made → (make lax map).result = .ok made
  /-- The number of workers has no influence on what planning ends in, or on its warnings. -/
  workers : ∀ policy other : Policy, other.requireIntegrity = policy.requireIntegrity →
    other.refMode = policy.refMode → make other map = make policy map
  /-- Where mutable refs are warned of, a plan comes with one warning for each of them. -/
  warned : ∀ policy : Policy, policy.refMode = .warn →
    ∀ made, (make policy map).result = .ok made →
      (make policy map).warnings = (mutableRefs map).map warningOf
  /-- Where mutable refs are let pass or refused, there are no warnings, plan or not. -/
  quiet : ∀ policy : Policy, policy.refMode = .allow ∨ policy.refMode = .refuse →
    (make policy map).warnings = []

/-- **Every map is only gated by policies.** -/
theorem gates (map : List (String × Package)) : Gates map where
  laxer strict lax hlax h made hmade := by
    -- both plans are the one that the most lenient policy makes
    obtain ⟨hadmits, hlenient⟩ := make_eq_ok_iff_admits.1 hmade
    exact make_eq_ok_iff_admits.2
      ⟨fun wanted hwanted => (hadmits wanted hwanted).of_noStricter hlax h, hlenient⟩
  workers _ _ hrequire hmode := make_congr hrequire hmode map
  warned policy hmode made hmade := by
    rw [(warnings_make policy map).2 made hmade, mutableRefs, List.filterMap_eq_flatMap_toList,
      List.map_flatMap]
    simp only [warnings_plan, if_pos hmode]
  quiet _ hmode := warnings_of_quiet hmode

/-- A project, a package on a branch, and a package that is not downloaded. -/
def branchMap : List (String × Package) :=
  [("", ⟨none, none⟩),
    ("a", ⟨some (.url ⟨"git+ssh://git@github.com/foo/bar.git#main"⟩), some "sha512-AAAA"⟩),
    ("b", ⟨some (.other "1.0.0"), none⟩)]

/-- The plan of these packages. -/
def branchPlan : Plan :=
  ⟨[⟨"a", "https://codeload.github.com/foo/bar/tar.gz/main",
      "make-fetch-happen:request-cache:https://codeload.github.com/foo/bar/tar.gz/main",
      some "sha512-AAAA"⟩], ["b"]⟩

/-- A policy that warns and requires digests, with two workers. -/
def warningPolicy : Policy := ⟨some 2, true, .warn, by simp⟩

/-- The package on a branch is planned with one warning, and without any by a lenient policy. -/
theorem gates_branch : (make warningPolicy branchMap).result = .ok branchPlan ∧
    (make warningPolicy branchMap).warnings = [Policy.refWarning "a" "main"] ∧
    (make Policy.lenient branchMap).result = .ok branchPlan ∧
    (make Policy.lenient branchMap).warnings = [] := by
  have hplan : (make warningPolicy branchMap).result = .ok branchPlan := by decide +kernel
  have hrefs : mutableRefs branchMap = [("a", "main")] := by decide +kernel
  have hwarned := (gates branchMap).warned warningPolicy rfl branchPlan hplan
  rw [hrefs] at hwarned
  refine ⟨hplan, hwarned, ?_, (gates branchMap).quiet Policy.lenient (Or.inl rfl)⟩
  exact (gates branchMap).laxer warningPolicy Policy.lenient (Or.inr (Or.inr rfl)) ⟨nofun, nofun⟩
    branchPlan hplan

end Plan

end LockPrefetch
