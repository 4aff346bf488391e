import LockPrefetch.Plan
import LockPrefetch.Proofs.Url.Remotes
import Mathlib.Data.List.Forall2

/-! # What a plan follows from

Each download of a plan follows from one package of the map: it obeys the policy, and the digest
that its content has to match is selected from what the package declares
(`Plan.planned_of_mem`).

A map is planned entry by entry: there is a plan exactly if each download that the map asks for
is planned (`Plan.make_eq_ok_iff`). There is none exactly if some entry is refused, and then
planning fails for the first such entry (`Plan.make_eq_error_iff`): with a report that names its
key, unless its URL cannot be split. -/

set_option autoImplicit false

namespace LockPrefetch

variable {policy : Policy} {package : String} {url : Url} {integrity : Option String}
  {fetch : PlannedFetch} {parts : Url.Parts} {fault : Url.Malformed} {cause failure : Failure}

theorem Policy.checkIntegrity_ok_iff {nothing : Unit} :
    policy.checkIntegrity package integrity = .ok nothing ↔
      (policy.requireIntegrity = true → integrity.isSome = true) := by
  unfold checkIntegrity
  cases integrity <;> simp

namespace PlannedFetch

/-- **A download is made of** a package, a URL and a declaration; policy has no part in it. -/
def MadeOf (package : String) (url : Url) (integrity : Option String) (fetch : PlannedFetch) :
    Prop :=
  ∃ token, (integrity.mapM fun field => (Digest.select field).mapError Failure.diagnosed) =
    .ok token ∧ fetch = ⟨package, url.text, keyFor url.text, token⟩

theorem ofUrl_eq_ok_iff : ofUrl policy package url integrity = .ok fetch ↔
    (policy.requireIntegrity = true → integrity.isSome = true) ∧
      MadeOf package url integrity fetch := by
  have hcheck : policy.checkIntegrity package integrity = .ok () ↔ _ :=
    Policy.checkIntegrity_ok_iff
  rw [← hcheck]
  unfold ofUrl MadeOf
  cases policy.checkIntegrity package integrity with
  | error report => simp [bind, Except.bind]
  | ok nothing =>
      rw [mapError_ok, bind_eq_ok_iff]
      constructor
      · rintro ⟨_, _, h⟩
        obtain ⟨token, htoken, hfetch⟩ := bind_eq_ok_iff.1 h
        cases hfetch
        exact ⟨rfl, token, htoken, rfl⟩
      · rintro ⟨_, token, htoken, rfl⟩
        exact ⟨(), rfl, bind_eq_ok_iff.2 ⟨token, htoken, rfl⟩⟩

/-- **A download obeys the policy** and a declaration: it is stored under the key of its URL, it
has a declaration where one is required, and it has to match the digest selected from it. -/
structure Obeys (policy : Policy) (integrity : Option String) (fetch : PlannedFetch) : Prop where
  cacheKey : fetch.cacheKey = keyFor fetch.url
  required : policy.requireIntegrity = true → integrity.isSome
  selected : ∀ field, integrity = some field →
    ∃ token, Digest.select field = .ok token ∧ fetch.integrity = some token

theorem ofUrl_ok (h : ofUrl policy package url integrity = .ok fetch) :
    fetch.package = package ∧ fetch.Obeys policy integrity := by
  obtain ⟨hrequired, token?, htoken, rfl⟩ := ofUrl_eq_ok_iff.1 h
  refine ⟨rfl, rfl, hrequired, ?_⟩
  rintro field rfl
  cases hselect : Digest.select field with
  | error report =>
      rw [Option.mapM_some, hselect] at htoken
      cases htoken
  | ok token =>
      rw [Option.mapM_some, hselect] at htoken
      cases htoken
      exact ⟨token, rfl, rfl⟩

theorem plan_ok (h : (plan policy package url integrity).result = .ok fetch) :
    fetch.package = package ∧ fetch.Obeys policy integrity := by
  unfold plan at h
  cases harchive : HostedArchive.ofUrl? url with
  | error fault => simp [harchive] at h
  | ok archive? =>
      cases archive? with
      | none =>
          simp only [harchive] at h
          exact ofUrl_ok h
      | some archive =>
          cases href : policy.checkRef package archive.ref with
          | error report => simp [harchive, href] at h
          | ok warnings =>
              simp only [harchive, href] at h
              exact ofUrl_ok h

/-- A report that names a package, or none, and then leaves it to be named. -/
def Concerns (package : String) (report : Diagnostic) : Prop :=
  (Ordered.get? "package" report.context).getD package = package

theorem concerns_of_checkRef {ref : String} {report : Diagnostic}
    (h : policy.checkRef package ref = .error report) : Concerns package report := by
  unfold Policy.checkRef at h
  split at h
  · cases h
  · split at h <;> cases h <;> rfl

theorem concerns_of_checkIntegrity {report : Diagnostic}
    (h : policy.checkIntegrity package integrity = .error report) : Concerns package report := by
  unfold Policy.checkIntegrity at h
  split at h
  · cases h
    rfl
  · cases h

theorem concerns_of_select {field : String} {report : Diagnostic}
    (h : Digest.select field = .error report) : Concerns package report := by
  unfold Digest.select at h
  split at h
  · cases h
  · cases h
    rfl

theorem ofUrl_error (h : ofUrl policy package url integrity = .error cause) :
    ∃ report, cause = .diagnosed report ∧ Concerns package report := by
  rcases bind_eq_error_iff.1 h with hcheck | ⟨_, _, h⟩
  · cases hpolicy : policy.checkIntegrity package integrity with
    | error report =>
        rw [hpolicy] at hcheck
        cases hcheck
        exact ⟨report, rfl, concerns_of_checkIntegrity hpolicy⟩
    | ok _ =>
        rw [hpolicy] at hcheck
        cases hcheck
  · rcases bind_eq_error_iff.1 h with hselect | ⟨_, _, hnothing⟩
    · cases integrity with
      | none => cases hselect
      | some field =>
          cases htoken : Digest.select field with
          | error report =>
              simp only [Option.mapM_some, htoken, mapError_error] at hselect
              cases hselect
              exact ⟨report, rfl, concerns_of_select htoken⟩
          | ok token =>
              simp only [Option.mapM_some, htoken, mapError_ok] at hselect
              cases hselect
    · cases hnothing

theorem plan_of_parts_error (h : url.parts = .error fault) :
    (plan policy package url integrity).result = .error (.malformedUrl fault) := by
  rw [plan, HostedArchive.ofUrl?_eq_error_iff.2 h]

/-- **A URL that can be split** is refused with a report that names the package of the download
or none. -/
theorem plan_error (hparts : url.parts = .ok parts)
    (h : (plan policy package url integrity).result = .error cause) :
    ∃ report, cause = .diagnosed report ∧ Concerns package report := by
  unfold plan at h
  cases harchive : HostedArchive.ofUrl? url with
  | error fault =>
      rw [HostedArchive.ofUrl?_eq_error_iff.1 harchive] at hparts
      cases hparts
  | ok archive? =>
      cases archive? with
      | none =>
          simp only [harchive] at h
          exact ofUrl_error h
      | some archive =>
          cases href : policy.checkRef package archive.ref with
          | error report =>
              simp only [harchive, href] at h
              cases h
              exact ⟨report, rfl, concerns_of_checkRef href⟩
          | ok warnings =>
              simp only [harchive, href] at h
              exact ofUrl_error h

end PlannedFetch

namespace Plan

variable {map rest : List (String × Package)} {made : Plan} {entry : String × Package}

/-! ## Entries that are refused -/

/-- **An entry is refused**: it is not the project itself, and the download of its URL cannot be
planned. -/
def Refuses (policy : Policy) (entry : String × Package) (cause : Failure) : Prop :=
  entry.1 ≠ "" ∧ ∃ url, entry.2.resolved = some (.url url) ∧
    (PlannedFetch.plan policy entry.1 url entry.2.integrity).result = .error cause

/-- No entry of a map is refused. -/
def Accepts (policy : Policy) (map : List (String × Package)) : Prop :=
  ∀ entry ∈ map, ∀ cause, ¬ Refuses policy entry cause

theorem make_of_refuses (h : Refuses policy entry cause) :
    (make policy (entry :: rest)).result = .error (cause.attach [("package", entry.1)]) := by
  obtain ⟨key, package⟩ := entry
  obtain ⟨hkey, url, hresolved, hplan⟩ := h
  simp only at hkey hresolved hplan
  cases hfetch : PlannedFetch.plan policy key url package.integrity with
  | mk result warnings =>
      rw [hfetch] at hplan
      cases hplan
      rw [make, if_neg hkey]
      simp only [hresolved, hfetch]

/-- Planning goes on behind an entry that is not refused. -/
theorem make_of_not_refuses (h : ∀ cause, ¬ Refuses policy entry cause)
    (rest : List (String × Package)) :
    ∃ extend : Plan → Plan,
      (make policy (entry :: rest)).result = (make policy rest).result.map extend := by
  obtain ⟨key, package⟩ := entry
  have hsame : (make policy rest).result = (make policy rest).result.map id := by
    cases (make policy rest).result <;> rfl
  rw [make]
  split
  · exact ⟨id, hsame⟩
  · rename_i hkey
    split
    · rename_i url hresolved
      split
      · rename_i cause warnings hplan
        exact absurd ⟨hkey, url, hresolved, by rw [hplan]⟩ (h cause)
      · rename_i fetch warnings _
        exact ⟨withFetch fetch, rfl⟩
    · exact ⟨withSkipped key, rfl⟩

/-- **Planning fails for the first entry that is refused**, and its key is attached. -/
theorem make_eq_error_iff : (make policy map).result = .error failure ↔
    ∃ before entry after cause, map = before ++ entry :: after ∧ Accepts policy before ∧
      Refuses policy entry cause ∧ failure = cause.attach [("package", entry.1)] := by
  induction map with
  | nil =>
      constructor
      · nofun
      · rintro ⟨before, entry, after, _, hnil, _⟩
        simp at hnil
  | cons first rest ih =>
      by_cases hfirst : ∃ cause, Refuses policy first cause
      · obtain ⟨cause, hcause⟩ := hfirst
        rw [make_of_refuses hcause, Except.error.injEq]
        constructor
        · intro hfailure
          exact ⟨[], first, rest, cause, rfl, nofun, hcause, hfailure.symm⟩
        · rintro ⟨before, entry, after, other, hsplit, hbefore, hentry, rfl⟩
          cases before with
          | nil =>
              cases hsplit
              -- an entry is refused for one reason
              obtain ⟨_, url, hresolved, hplan⟩ := hcause
              obtain ⟨_, url', hresolved', hplan'⟩ := hentry
              cases hresolved.symm.trans hresolved'
              cases hplan.symm.trans hplan'
              rfl
          | cons _ before =>
              cases hsplit
              exact absurd hcause (hbefore _ List.mem_cons_self cause)
      · have hnone : ∀ cause, ¬ Refuses policy first cause := not_exists.1 hfirst
        obtain ⟨extend, hmake⟩ := make_of_not_refuses hnone rest
        have hmap : (make policy (first :: rest)).result = .error failure ↔
            (make policy rest).result = .error failure := by
          rw [hmake]
          cases (make policy rest).result <;> simp [Except.map]
        rw [hmap, ih]
        constructor
        · rintro ⟨before, entry, after, cause, rfl, hbefore, hentry⟩
          exact ⟨first :: before, entry, after, cause, rfl,
            List.forall_mem_cons.2 ⟨hnone, hbefore⟩, hentry⟩
        · rintro ⟨before, entry, after, cause, hsplit, hbefore, hentry, hfailure⟩
          cases before with
          | nil =>
              cases hsplit
              exact absurd hentry (hnone cause)
          | cons _ before =>
              cases hsplit
              exact ⟨before, entry, after, cause, rfl, (List.forall_mem_cons.1 hbefore).2, hentry,
                hfailure⟩

/-! ## One entry after another -/

/-- A download that an entry of a map asks for. -/
structure Wanted where
  package : String
  url : Url
  integrity : Option String

/-- Plans a download that is asked for. -/
def Wanted.plan (policy : Policy) (wanted : Wanted) : Planned PlannedFetch :=
  PlannedFetch.plan policy wanted.package wanted.url wanted.integrity

/-- **What becomes of an entry**: the project itself is left out, a package that does not resolve
to a URL is skipped, any other is downloaded. -/
inductive Task where
  | leaveOut
  | skip (key : String)
  | download (wanted : Wanted)

/-- What becomes of an entry, whatever the policy. -/
def Task.of : String × Package → Task
  | (key, package) =>
    if key = "" then .leaveOut
    else
      match package.resolved with
      | some (.url url) => .download ⟨key, url, package.integrity⟩
      | _ => .skip key

/-- The download of a task that is one. -/
def Task.wanted? : Task → Option Wanted
  | .download wanted => some wanted
  | _ => none

/-- The key of a task that is skipped. -/
def Task.skipped? : Task → Option String
  | .skip key => some key
  | _ => none

/-- The downloads that a map asks for. -/
def wantedOf (map : List (String × Package)) : List Wanted :=
  map.filterMap fun entry => (Task.of entry).wanted?

/-- The keys of a map for which there is nothing to download. -/
def skippedOf (map : List (String × Package)) : List String :=
  map.filterMap fun entry => (Task.of entry).skipped?

/-- **Planning a map entry by entry.** -/
theorem make_cons (policy : Policy) (entry : String × Package) (rest : List (String × Package)) :
    make policy (entry :: rest) =
      match Task.of entry with
      | .leaveOut => make policy rest
      | .skip key =>
        ⟨(make policy rest).result.map (withSkipped key), (make policy rest).warnings⟩
      | .download wanted =>
        match wanted.plan policy with
        | ⟨.error failure, warnings⟩ =>
          ⟨.error (failure.attach [("package", wanted.package)]), warnings⟩
        | ⟨.ok fetch, warnings⟩ =>
          ⟨(make policy rest).result.map (withFetch fetch),
            warnings ++ (make policy rest).warnings⟩ := by
  obtain ⟨key, resolved, integrity⟩ := entry
  rw [make, Task.of]
  split
  · rfl
  · cases resolved with
    | none => rfl
    | some specifier =>
      cases specifier with
      | url url => rfl
      | other text => rfl

/-- **A map is planned** exactly if each download that it asks for is planned; the plan holds
these downloads and the skipped keys in the order of the map. -/
theorem make_eq_ok_iff : (make policy map).result = .ok made ↔
    List.Forall₂ (fun wanted fetch => (wanted.plan policy).result = .ok fetch) (wantedOf map)
      made.fetches ∧ made.skipped = skippedOf map := by
  induction map generalizing made with
  | nil =>
      obtain ⟨fetches, skipped⟩ := made
      simp [make, wantedOf, skippedOf, eq_comm]
  | cons entry rest ih =>
      rw [make_cons, wantedOf, skippedOf, List.filterMap_cons, List.filterMap_cons, ← wantedOf,
        ← skippedOf]
      cases Task.of entry with
      | leaveOut => exact ih
      | skip key =>
          simp only [Task.wanted?, Task.skipped?, map_eq_ok_iff]
          constructor
          · rintro ⟨later, hlater, rfl⟩
            obtain ⟨hfetches, hskipped⟩ := ih.1 hlater
            exact ⟨hfetches, congrArg (key :: ·) hskipped⟩
          · rintro ⟨hfetches, hskipped⟩
            refine ⟨⟨made.fetches, skippedOf rest⟩, ih.2 ⟨hfetches, rfl⟩, ?_⟩
            rw [withSkipped, ← hskipped]
      | download wanted =>
          simp only [Task.wanted?, Task.skipped?, List.forall₂_cons_left_iff]
          obtain ⟨result, warnings⟩ := wanted.plan policy
          cases result with
          | error failure => simp
          | ok fetch =>
              -- the download stands in front of those of the later entries
              simp only [map_eq_ok_iff, Except.ok.injEq]
              constructor
              · rintro ⟨later, hlater, rfl⟩
                obtain ⟨hfetches, hskipped⟩ := ih.1 hlater
                exact ⟨⟨fetch, later.fetches, rfl, hfetches, rfl⟩, hskipped⟩
              · rintro ⟨⟨_, others, rfl, hfetches, hmade⟩, hskipped⟩
                refine ⟨⟨others, skippedOf rest⟩, ih.2 ⟨hfetches, rfl⟩, ?_⟩
                rw [withFetch, ← hskipped, ← hmade]

/-! ## Downloads that are planned -/

/-- What is asked for comes from an entry that resolves to a URL. -/
theorem mem_wantedOf {wanted : Wanted} (h : wanted ∈ wantedOf map) :
    ∃ package, (wanted.package, package) ∈ map ∧ package.resolved = some (.url wanted.url) ∧
      package.integrity = wanted.integrity := by
  obtain ⟨⟨key, package⟩, hentry, htask⟩ := List.mem_filterMap.1 h
  rw [Task.of] at htask
  split at htask
  · cases htask
  · split at htask
    · rename_i url hresolved
      cases htask
      exact ⟨package, hentry, hresolved, rfl⟩
    · cases htask

/-- What stands on the right of two related lists is related to something on the left. -/
theorem exists_of_mem_right {α β : Type} {R : α → β → Prop} {xs : List α} {ys : List β} {y : β}
    (h : List.Forall₂ R xs ys) (hy : y ∈ ys) : ∃ x ∈ xs, R x y := by
  induction h with
  | nil => cases hy
  | @cons x first xs ys hfirst _ ih =>
      rcases List.mem_cons.1 hy with rfl | hy
      · exact ⟨x, List.mem_cons_self, hfirst⟩
      · obtain ⟨other, hother, hrelated⟩ := ih hy
        exact ⟨other, List.mem_cons_of_mem _ hother, hrelated⟩

/-- **A planned download** comes from a package of the map that resolves to a URL. -/
theorem planned_of_mem (h : (make policy map).result = .ok made) (hfetch : fetch ∈ made.fetches) :
    ∃ package url, (fetch.package, package) ∈ map ∧ package.resolved = some (.url url) ∧
      (PlannedFetch.plan policy fetch.package url package.integrity).result = .ok fetch := by
  obtain ⟨wanted, hwanted, hplan⟩ := exists_of_mem_right (make_eq_ok_iff.1 h).1 hfetch
  obtain ⟨package, hentry, hresolved, hintegrity⟩ := mem_wantedOf hwanted
  have hname : fetch.package = wanted.package := (PlannedFetch.plan_ok hplan).1
  rw [hname]
  refine ⟨package, wanted.url, hentry, hresolved, ?_⟩
  rw [hintegrity]
  exact hplan

end Plan

end LockPrefetch
