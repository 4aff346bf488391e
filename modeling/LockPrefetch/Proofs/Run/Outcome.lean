import LockPrefetch.Proofs.Run.Verdict

/-! # All or nothing

A run with a crew returns a report only if every job has succeeded, and then lists all of them
in the order of the plan, in whatever order they were done. If a job has failed, the run fails
with the failure of such a job, and the failure says which package it is about
(`AllOrNothing`).

What a put fails with never names a package (`Store.Accounts`), so the name that is attached is
that of the job, unless the fetcher had named one before. -/

set_option autoImplicit false

namespace LockPrefetch

/-! ## Context -/

/-- A failure whose context has no text under a name. -/
def Failure.Lacks (key : String) (failure : Failure) : Prop :=
  ∀ report, failure = .diagnosed report → Ordered.get? key report.context = none

namespace Store

variable {store : Store} {tree after : FileTree} {put : Put} {progress : Progress}
  {failure : Failure} {key url : String} {data : Bytes} {declared : Option String}
  {session : Session} {puts : List Put}

/-! ## What puts fail with -/

theorem lacks_toFailure (fault : Digest.Fault) : fault.toFailure.Lacks "package" := by
  intro report hreport
  cases fault <;> cases hreport <;> rfl

theorem lacks_refused (operation : String) (path : Path) (fault : FileTree.Fault) :
    (refused operation path fault).Lacks "package" := by
  intro report hreport
  unfold refused at hreport
  split at hreport
  · cases hreport
    rfl
  · cases hreport

theorem lacks_malformedDeclaration {report : Diagnostic}
    (h : Ordered.get? "package" report.context = none) (token : String) :
    Ordered.get? "package" (malformedDeclaration key url token report).context = none := by
  simp only [malformedDeclaration, List.foldl_cons, List.foldl_nil, Ordered.get?_put, h]
  rfl

/-- **Content that is not verified** is reported without a package. -/
theorem lacks_verify (h : verify key url data declared = .error failure) :
    failure.Lacks "package" := by
  cases declared with
  | none =>
      unfold verify at h
      cases hcompute : Digest.compute data Digest.defaultName with
      | ok digest => simp [hcompute] at h
      | error fault =>
          simp only [hcompute, mapError_error, Except.error.injEq] at h
          rw [← h]
          exact lacks_toFailure fault
  | some token =>
      simp only [verify] at h
      cases hparse : Digest.parse token with
      | error fault =>
          have hlacks := lacks_toFailure fault
          simp only [hparse] at h
          cases hfailure : fault.toFailure with
          | diagnosed report =>
              simp only [hfailure, Except.error.injEq] at h
              subst h
              intro report' hreport
              cases hreport
              exact lacks_malformedDeclaration (hlacks report hfailure) token
          | _ =>
              simp only [hfailure, Except.error.injEq] at h
              rw [← h, ← hfailure]
              exact hlacks
      | ok expected =>
          simp only [hparse] at h
          cases hcompute : Digest.compute data expected.name with
          | error fault =>
              simp only [hcompute, mapError_error, bind, Except.bind, Except.error.injEq] at h
              rw [← h]
              exact lacks_toFailure fault
          | ok actual =>
              simp only [hcompute, mapError_ok, bind, Except.bind, pure, Except.pure] at h
              split at h
              · cases h
              · cases h
                intro report hreport
                cases hreport
                rfl

theorem lacks_hasContent {digest : Digest} (h : store.hasContent tree digest = .error failure) :
    failure.Lacks "package" := by
  unfold hasContent at h
  generalize tree.pathExists (store.contentPath digest) = looked at h
  cases looked with
  | ok present => cases h
  | error fault =>
      cases h
      nofun

/-- What the file tree refuses is reported without a package. -/
theorem lacks_restating {operation : String} {path : Path}
    {action : FileTree.Action FileTree.Fault Unit}
    (h : (FileTree.Action.restating (refused operation path) action).run tree =
      (.error failure, after)) : failure.Lacks "package" := by
  rw [FileTree.Action.run_restating] at h
  generalize (action.run tree).1 = result at h
  cases result with
  | ok _ => cases h
  | error fault =>
      cases h
      exact lacks_refused operation path fault

theorem lacks_layDown {digest : Digest} {present : Bool}
    (h : (store.layDown digest data present).run tree = (.error failure, after)) :
    failure.Lacks "package" := by
  cases present with
  | true => cases h
  | false =>
      rw [layDown, if_neg (by simp), placeContent_eq] at h
      exact lacks_restating h

theorem lacks_appendRecord {digest : Digest} {size : Nat}
    (h : (store.appendRecord key url digest size).run tree = (.error failure, after)) :
    failure.Lacks "package" := by
  rw [appendRecord_eq] at h
  exact lacks_restating h

/-- **What a put goes by**: the digest that its content was verified with, which is what it
returns, or a failure that names no package. -/
def Accounts (put : Put) : Progress → Prop
  | .waiting => True
  | .looked digest _ => verify put.key put.url put.data put.declared = .ok digest
  | .laid digest => verify put.key put.url put.data put.declared = .ok digest
  | .ended (.ok token) =>
    ∃ digest, verify put.key put.url put.data put.declared = .ok digest ∧ digest.token = token
  | .ended (.error failure) => failure.Lacks "package"

theorem Accounts.step (h : Accounts put progress) (store : Store) (tree : FileTree) :
    Accounts put (put.step store progress tree).1 := by
  cases progress with
  | waiting =>
      rw [Put.step_waiting]
      cases hverify : verify put.key put.url put.data put.declared with
      | error failure => exact lacks_verify hverify
      | ok digest =>
          rw [Progress.following_ok]
          cases hpresent : store.hasContent tree digest with
          | error failure => exact lacks_hasContent hpresent
          | ok present => exact hverify
  | looked digest present =>
      rcases hrun : (store.layDown digest put.data present).run tree with ⟨result, after⟩
      rw [Put.step_looked hrun]
      cases result with
      | error failure => exact lacks_layDown hrun
      | ok _ => exact h
  | laid digest =>
      rcases hrun : (store.appendRecord put.key put.url digest put.data.length).run tree with
        ⟨result, after⟩
      rw [Put.step_laid hrun]
      cases result with
      | error failure => exact lacks_appendRecord hrun
      | ok _ => exact ⟨digest, h, rfl⟩
  | ended result =>
      rw [Put.step_ended]
      exact h

theorem accounts_run (h : ∀ task ∈ session.tasks, Accounts task.1 task.2) (turns : List Nat) :
    ∀ task ∈ (session.run store turns).tasks, Accounts task.1 task.2 := by
  induction turns generalizing session with
  | nil => exact h
  | cons turn rest ih =>
      refine ih fun task htask => ?_
      unfold Session.step at htask
      cases hturn : session.tasks[turn]? with
      | none =>
          rw [hturn] at htask
          exact h task htask
      | some now =>
          rw [hturn] at htask
          rcases List.mem_or_eq_of_mem_set htask with hmem | rfl
          · exact h task hmem
          · exact (h now (List.mem_of_getElem? hturn)).step store session.tree

theorem accounts_start (puts : List Put) (tree : FileTree) :
    ∀ task ∈ (Session.start puts tree).tasks, Accounts task.1 task.2 := by
  intro task htask
  obtain ⟨put, _, rfl⟩ := List.mem_map.1 htask
  trivial

/-- **Every put that takes turns goes by its digest** or fails without naming a package. -/
theorem accounts_interleaved (store : Store) (puts : List Put) (tree : FileTree)
    (turns : List Nat) :
    ∀ task ∈ (store.interleaved puts tree turns).tasks, Accounts task.1 task.2 :=
  accounts_run (accounts_start puts tree) turns

/-- **What every step of a put leads to, all turns lead to**, if it is reflexive and
transitive. -/
theorem related_run {Rel : FileTree → FileTree → Prop} (hrefl : ∀ tree, Rel tree tree)
    (htrans : ∀ {first second third}, Rel first second → Rel second third → Rel first third)
    (hstep : ∀ put progress tree, Accounts put progress →
      Rel tree (put.step store progress tree).2)
    (h : ∀ task ∈ session.tasks, Accounts task.1 task.2) (turns : List Nat) :
    Rel session.tree (session.run store turns).tree := by
  induction turns generalizing session with
  | nil => exact hrefl session.tree
  | cons turn rest ih =>
      have hfirst : Rel session.tree (session.step store turn).tree := by
        unfold Session.step
        cases hturn : session.tasks[turn]? with
        | none => exact hrefl session.tree
        | some task => exact hstep _ _ _ (h task (List.mem_of_getElem? hturn))
      have hlater : ∀ task ∈ (session.step store turn).tasks, Accounts task.1 task.2 :=
        accounts_run h [turn]
      exact htrans hfirst (ih hlater)

end Store

namespace Run

open Store (Put Progress Session Accounts)

variable {store : Store} {fetchers : Fetchers} {fetcher : Fetcher} {crew : Crew}
  {tree : FileTree} {fetch : PlannedFetch} {fetches : List PlannedFetch} {data : Bytes}
  {job : Job} {index : Nat} {schedule : List Turn} {policy : Policy} {version : Option Int}
  {map : List (String × Package)} {plan : Plan} {package : FetchedPackage} {failure : Failure}
  {run : Run Report} {report : Report}

/-! ## What a job finishes with -/

/-- **What is reported of a download**: its own package and URL, the digest that its own content
has and its declaration denotes, and the length of this content. -/
structure ReportedAs (fetcher : Fetcher) (fetch : PlannedFetch) (package : FetchedPackage)
    (data : Bytes) (digest : Digest) : Prop where
  fetched : fetcher fetch.url = .ok data
  hash : Digest.compute data digest.name = .ok digest
  declared : Store.Declares fetch.integrity digest
  reported : package = ⟨fetch.package, fetch.url, digest.token, data.length⟩

/-- **A failure names the package of its download**, unless the fetcher had named one. -/
def Blames (fetcher : Fetcher) (fetch : PlannedFetch) (failure : Failure) : Prop :=
  ∀ report, failure = .diagnosed report →
    Ordered.get? "package" report.context = some fetch.package ∨
    ∃ own name, fetcher fetch.url = .error (.diagnosed own) ∧
      Ordered.get? "package" own.context = some name ∧
      Ordered.get? "package" report.context = some name

/-- A failure without a package is told its package. -/
theorem blames_attach {cause : Failure} (h : cause.Lacks "package") :
    Blames fetcher fetch (cause.attach [("package", fetch.package)]) := by
  intro report hreport
  cases cause with
  | diagnosed own =>
      cases hreport
      rw [Diagnostic.get?_attach, h own rfl]
      exact Or.inl rfl
  | _ => cases hreport

/-- A failure of the fetcher keeps the package that it names. -/
theorem blames_attach_fetcher {cause : Failure} (h : fetcher fetch.url = .error cause) :
    Blames fetcher fetch (cause.attach [("package", fetch.package)]) := by
  intro report hreport
  cases cause with
  | diagnosed own =>
      cases hreport
      rw [Diagnostic.get?_attach]
      cases hown : Ordered.get? "package" own.context with
      | none => exact Or.inl rfl
      | some name => exact Or.inr ⟨own, name, h, hown, rfl⟩
  | _ => cases hreport

/-- **What a job finishes with** is its own package or a failure that names it. -/
theorem Mirrors.finished {progress : Progress} {result : Except Failure FetchedPackage}
    {stage : Stage} (h : Mirrors (fetchers index) fetch stage progress)
    (haccounts : Accounts (putOf fetch (answer fetchers index fetch)) progress)
    (hstage : stage = .finished result) :
    (∀ package, result = .ok package →
      ∃ data digest, ReportedAs (fetchers index) fetch package data digest) ∧
    ∀ failure, result = .error failure → Blames (fetchers index) fetch failure := by
  cases h with
  | waiting => cases hstage
  | started => cases hstage
  | calledOff => cases hstage
  | refused hanswer =>
      cases hstage
      refine ⟨nofun, fun failure hfailure => ?_⟩
      cases hfailure
      exact blames_attach_fetcher hanswer
  | fetched hanswer =>
      obtain ⟨stored, rfl, rfl⟩ := Stage.ofProgress_finished hstage
      rw [answer_eq hanswer] at haccounts
      cases stored with
      | ok token =>
          obtain ⟨digest, hverify, rfl⟩ := haccounts
          obtain ⟨hof, hdeclares⟩ := Store.verify_eq_ok_iff.1 hverify
          refine ⟨fun package hpackage => ?_, nofun⟩
          cases hpackage
          exact ⟨_, digest, hanswer, Digest.compute_eq_ok_iff.2 ⟨rfl, hof⟩, hdeclares, rfl⟩
      | error cause =>
          refine ⟨nofun, fun failure hfailure => ?_⟩
          cases hfailure
          exact blames_attach haccounts

/-- A job that has succeeded was fetched, and its put has returned. -/
theorem Mirrors.stored {stage : Stage} {progress : Progress}
    (h : Mirrors fetcher fetch stage progress) (hstage : stage = .finished (.ok package)) :
    ∃ data token, fetcher fetch.url = .ok data ∧ progress = .ended (.ok token) ∧
      package = ⟨fetch.package, fetch.url, token, data.length⟩ := by
  cases h with
  | waiting => cases hstage
  | started => cases hstage
  | calledOff => cases hstage
  | refused _ => cases hstage
  | fetched hanswer =>
      obtain ⟨stored, rfl, heq⟩ := Stage.ofProgress_finished hstage
      cases stored with
      | error cause => cases heq
      | ok token =>
          cases heq
          exact ⟨_, token, hanswer, rfl, rfl⟩

theorem finished_of_run {result : Except Failure FetchedPackage}
    (h : ((Crew.start fetches tree).run store fetchers schedule).jobs[index]? = some job)
    (hstage : job.stage = .finished result) :
    (∀ package, result = .ok package →
      ∃ data digest, ReportedAs (fetchers index) job.fetch package data digest) ∧
    ∀ failure, result = .error failure → Blames (fetchers index) job.fetch failure := by
  obtain ⟨turns, hfollows⟩ := Crew.follows_run store fetchers fetches tree schedule
  obtain ⟨progress, htask, hmirrors⟩ := hfollows.stages index job h
  exact hmirrors.finished
    (Store.accounts_interleaved store _ tree turns _ (List.mem_of_getElem? htask)) hstage

/-- **What every step of a put leads to, a crew leads to** at any time. -/
theorem related_crew {Rel : FileTree → FileTree → Prop} (hrefl : ∀ tree, Rel tree tree)
    (htrans : ∀ {first second third}, Rel first second → Rel second third → Rel first third)
    (hstep : ∀ put progress tree, Accounts put progress →
      Rel tree (put.step store progress tree).2)
    (fetchers : Fetchers) (fetches : List PlannedFetch) (schedule : List Turn)
    (tree : FileTree) :
    Rel tree ((Crew.start fetches tree).run store fetchers schedule).tree := by
  obtain ⟨turns, hfollows⟩ := Crew.follows_run store fetchers fetches tree schedule
  rw [hfollows.tree]
  exact Store.related_run hrefl htrans hstep
    (Store.accounts_start (putsBy fetchers fetches) tree) turns

theorem measurable_putsBy (h : ∀ index url data, fetchers index url = .ok data → data.Measurable)
    (fetches : List PlannedFetch) : ∀ put ∈ putsBy fetchers fetches, put.data.Measurable := by
  intro put hput
  obtain ⟨index, hindex, rfl⟩ := List.mem_mapIdx.1 hput
  show (answer fetchers index fetches[index]).Measurable
  unfold answer
  split
  · exact h index _ _ (by assumption)
  · exact Bytes.measurable_of_lt (by decide)

/-! ## Reports -/

/-- **All or nothing.** What a run with a crew comes to, told from its jobs in the end. -/
structure AllOrNothing (fetchers : Fetchers) (plan : Plan) (jobs : List Job) (run : Run Report) :
    Prop where
  /-- There is a job for each download of the plan, in its order. -/
  fetches : jobs.map Job.fetch = plan.fetches
  /-- If there is a report, every job has succeeded, and the report lists what they have
  finished with, in the order of the plan. -/
  listed : ∀ report, run.outcome = .ok report → report.skipped = plan.skipped ∧
    jobs.map Job.stage = report.packages.map fun package => .finished (.ok package)
  /-- What the report says of each download is about itself. -/
  reported : ∀ report, run.outcome = .ok report → ∀ index fetch,
    plan.fetches[index]? = some fetch → ∃ package data digest,
      report.packages[index]? = some package ∧
        ReportedAs (fetchers index) fetch package data digest
  /-- If a job has failed, so has the run. -/
  failed : ∀ job ∈ jobs, ∀ failure, job.stage = .finished (.error failure) →
    ∃ failure, run.outcome = .error failure
  /-- The failure of the run is that of a job, and names its package. -/
  blamed : ∀ failure, run.outcome = .error failure → ∃ index job, jobs[index]? = some job ∧
    job.stage = .finished (.error failure) ∧ Blames (fetchers index) job.fetch failure

theorem packagesBy_make (store : Store) (policy : Policy) (fetchers : Fetchers)
    (version : Option Int) (map : List (String × Package)) (schedule : List Turn)
    (tree : FileTree) :
    packagesBy store policy fetchers version map schedule tree =
      match (Plan.make policy map).result with
      | .error failure => some ⟨.error failure, tree, [], [], (Plan.make policy map).warnings⟩
      | .ok plan =>
        ((Crew.start plan.fetches tree).run store fetchers schedule).ended?.map
          (reported plan version (Plan.make policy map).warnings) := by
  unfold packagesBy
  rcases Plan.make policy map with ⟨result, warnings⟩
  cases result <;> rfl

theorem packagesBy_eq (hplan : (Plan.make policy map).result = .ok plan) (store : Store)
    (fetchers : Fetchers) (version : Option Int) (schedule : List Turn) (tree : FileTree) :
    packagesBy store policy fetchers version map schedule tree =
      ((Crew.start plan.fetches tree).run store fetchers schedule).ended?.map
        (reported plan version (Plan.make policy map).warnings) := by
  rw [packagesBy_make, hplan]

/-- A map that cannot be planned changes nothing. -/
theorem packagesBy_error (hplan : (Plan.make policy map).result = .error failure) (store : Store)
    (fetchers : Fetchers) (version : Option Int) (schedule : List Turn) (tree : FileTree) :
    packagesBy store policy fetchers version map schedule tree =
      some ⟨.error failure, tree, [], [], (Plan.make policy map).warnings⟩ := by
  rw [packagesBy_make, hplan]

/-- Jobs that have all succeeded are all there is to report. -/
theorem allOrNothing_of_listed {jobs : List Job} {listed : List FetchedPackage}
    (hfetches : jobs.map Job.fetch = plan.fetches)
    (hstages : jobs.map Job.stage = listed.map fun package => .finished (.ok package))
    (hrun : run.outcome = .ok ⟨listed, plan.skipped, version, Report.currentSchema⟩)
    (hreported : ∀ index job package, jobs[index]? = some job →
      job.stage = .finished (.ok package) →
      ∃ data digest, ReportedAs (fetchers index) job.fetch package data digest) :
    AllOrNothing fetchers plan jobs run where
  fetches := hfetches
  listed := by
    intro report hout
    rw [hrun] at hout
    cases hout
    exact ⟨rfl, hstages⟩
  reported := by
    intro report hout index fetch hfetch
    rw [hrun] at hout
    cases hout
    rw [← hfetches, List.getElem?_map, Option.map_eq_some_iff] at hfetch
    obtain ⟨job, hjob, rfl⟩ := hfetch
    -- the job and the package stand at the same index
    have hstage : (jobs.map Job.stage)[index]? = some job.stage := by
      rw [List.getElem?_map, hjob, Option.map_some]
    rw [hstages, List.getElem?_map, Option.map_eq_some_iff] at hstage
    obtain ⟨package, hpackage, heq⟩ := hstage
    obtain ⟨data, digest, hdata⟩ := hreported index job package hjob heq.symm
    exact ⟨package, data, digest, hpackage, hdata⟩
  failed := by
    intro job hjob failure hstage
    have hmem := List.mem_map_of_mem (f := Job.stage) hjob
    rw [hstages, hstage] at hmem
    obtain ⟨package, _, heq⟩ := List.mem_map.1 hmem
    cases heq
  blamed := by
    intro failure hout
    rw [hrun] at hout
    cases hout

/-- The failure of a job is the failure of the run. -/
theorem allOrNothing_of_failed {jobs : List Job}
    (hfetches : jobs.map Job.fetch = plan.fetches)
    (hjob : jobs[index]? = some ⟨fetch, .finished (.error failure)⟩)
    (hblames : Blames (fetchers index) fetch failure) (hrun : run.outcome = .error failure) :
    AllOrNothing fetchers plan jobs run where
  fetches := hfetches
  listed := by
    intro report hout
    rw [hrun] at hout
    cases hout
  reported := by
    intro report hout
    rw [hrun] at hout
    cases hout
  failed := fun _ _ _ _ => ⟨failure, hrun⟩
  blamed := by
    intro other hout
    rw [hrun] at hout
    cases hout
    exact ⟨index, _, hjob, rfl, hblames⟩

theorem allOrNothing_of_packagesBy (hplan : (Plan.make policy map).result = .ok plan)
    (hrun : packagesBy store policy fetchers version map schedule tree = some run) :
    AllOrNothing fetchers plan
      ((Crew.start plan.fetches tree).run store fetchers schedule).jobs run := by
  rw [packagesBy_eq hplan] at hrun
  obtain ⟨fetched, hended, rfl⟩ := Option.map_eq_some_iff.1 hrun
  have hfetches := Crew.fetches_start store fetchers plan.fetches tree schedule
  have hruled : Ruled ((Crew.start plan.fetches tree).run store fetchers schedule) :=
    (ruled_start plan.fetches tree).run schedule
  obtain ⟨_, _, _, hends⟩ := Crew.ended?_eq_some hended
  rcases hends with ⟨packages, hverdict, houtcome⟩ | ⟨fetch, failure, hverdict, houtcome⟩
  · have hreport : (reported plan version (Plan.make policy map).warnings fetched).outcome =
        .ok ⟨packages, plan.skipped, version, Report.currentSchema⟩ := by
      simp only [reported, houtcome, Except.map]
    exact allOrNothing_of_listed hfetches (mapM_package?_iff.1 (hruled.done packages hverdict))
      hreport fun index job package hjob hstage => (finished_of_run hjob hstage).1 package rfl
  · obtain ⟨index, hjob⟩ := List.mem_iff_getElem?.1 (hruled.failed fetch failure hverdict)
    refine allOrNothing_of_failed hfetches hjob ((finished_of_run hjob rfl).2 failure rfl) ?_
    simp only [reported, houtcome, Except.map]

/-- **A report is all or nothing**, whatever the order in which jobs are done. For every map that
can be planned, every policy and whatever the fetcher answers each job: every run comes to an
end if everybody goes on taking turns; where it has come to one, it returns what its jobs have
finished with if all have succeeded, and otherwise a failure of one of them that names its
package. Running without a crew is one of these runs. -/
theorem report_all_or_nothing (hplan : (Plan.make policy map).result = .ok plan) (store : Store)
    (fetchers : Fetchers) (version : Option Int) (tree : FileTree) :
    (∀ schedule, ∃ more run,
      packagesBy store policy fetchers version map (schedule ++ more) tree = some run) ∧
    (∀ schedule run, packagesBy store policy fetchers version map schedule tree = some run →
      AllOrNothing fetchers plan
        ((Crew.start plan.fetches tree).run store fetchers schedule).jobs run) ∧
    ∀ fetcher, packagesBy store policy (fun _ => fetcher) version map
        (Crew.inTurn plan.fetches.length) tree =
      some (packages store policy fetcher version map tree) := by
  refine ⟨fun schedule => ?_, fun schedule run hrun => allOrNothing_of_packagesBy hplan hrun,
    fun fetcher => packages_inTurn hplan store fetcher version tree⟩
  have hsettled := Crew.settled_of_any store fetchers (ruled_start plan.fetches tree) schedule
  obtain ⟨fetched, hended⟩ := Option.isSome_iff_exists.1 hsettled
  exact ⟨_, _, by rw [packagesBy_eq hplan, hended, Option.map_some]⟩

/-! ## A map of two packages -/

/-- A map of two packages that declare nothing. -/
def twoPackages : List (String × Package) :=
  [("a", ⟨some (.url ⟨"https://r/a"⟩), none⟩), ("b", ⟨some (.url ⟨"https://r/b"⟩), none⟩)]

/-- The downloads of the two packages. -/
def twoFetches : List PlannedFetch :=
  [⟨"a", "https://r/a", PlannedFetch.keyFor "https://r/a", none⟩,
    ⟨"b", "https://r/b", PlannedFetch.keyFor "https://r/b", none⟩]

theorem make_twoPackages :
    (Plan.make Policy.standard twoPackages).result = .ok ⟨twoFetches, []⟩ := by
  decide +kernel

/-- What a fetcher without a network answers. -/
def unreachable : Fetchers := fun _ _ => .error (.diagnosed ⟨.fetch, "unreachable", none, []⟩)

/-- The second of two downloads fails before the first has been taken up, which is called off. -/
theorem report_all_or_nothing_second_first :
    (Plan.make Policy.standard twoPackages).result = .ok ⟨twoFetches, []⟩ ∧
      ∃ run, packagesBy (Store.relative ["out"]) Policy.standard unreachable none twoPackages
          [.work 1, .work 1, .collect [1], .callOff 0] FileTree.empty = some run ∧
        run.outcome = .error (.diagnosed ⟨.fetch, "unreachable", none, [("package", "b")]⟩) ∧
        AllOrNothing unreachable ⟨twoFetches, []⟩
          ((Crew.start twoFetches FileTree.empty).run (Store.relative ["out"]) unreachable
            [.work 1, .work 1, .collect [1], .callOff 0]).jobs run := by
  obtain ⟨_, hruns, _⟩ := report_all_or_nothing make_twoPackages (Store.relative ["out"])
    unreachable none FileTree.empty
  have hrun := packagesBy_eq make_twoPackages (Store.relative ["out"]) unreachable none
    [.work 1, .work 1, .collect [1], .callOff 0] FileTree.empty
  refine ⟨make_twoPackages, _, hrun.trans rfl, rfl, hruns _ _ (hrun.trans rfl)⟩

end Run

end LockPrefetch
