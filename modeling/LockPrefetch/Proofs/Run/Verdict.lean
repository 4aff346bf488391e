import LockPrefetch.Proofs.Run.Crew

/-! # How a crew comes to an end

The verdict of a crew is backed by its jobs (`Ruled`): a failure is that of a job that finished
with it, and there are packages only if every job has finished with one. No job is called off
before there is a verdict, so a crew that goes on working gets to one (`Crew.settled_run`).
Taking the jobs in turn, each from its first step to its last, is one of the schedules; it
leaves what fetching one download after another leaves (`Crew.ended?_inTurn`). -/

set_option autoImplicit false

namespace LockPrefetch.Run

open Store (Put Progress Session)

variable {store : Store} {fetchers : Fetchers} {fetcher : Fetcher} {crew : Crew}
  {tree after : FileTree} {fetch : PlannedFetch} {fetches : List PlannedFetch} {data : Bytes}
  {progress : Progress} {stage : Stage} {job : Job} {jobs : List Job} {index : Nat} {turn : Turn}
  {schedule : List Turn} {policy : Policy} {version : Option Int}
  {map : List (String × Package)} {listed : List FetchedPackage} {failure : Failure}
  {noticed : List Nat}

/-! ## Verdicts -/

theorem package?_eq_some {package : FetchedPackage} :
    job.package? = some package ↔ job.stage = .finished (.ok package) := by
  unfold Job.package?
  split
  · rename_i found hstage
    simp [hstage]
  · rename_i hother
    exact ⟨nofun, fun hstage => absurd hstage (hother package)⟩

/-- There is a package for each job exactly if all have finished with one. -/
theorem mapM_package?_iff : jobs.mapM Job.package? = some listed ↔
    jobs.map Job.stage = listed.map fun package => .finished (.ok package) := by
  induction jobs generalizing listed with
  | nil => cases listed <;> simp
  | cons job rest ih =>
      simp only [List.mapM_cons, Option.bind_eq_bind, Option.bind_eq_some_iff, package?_eq_some, ih,
        Option.pure_def, Option.some.injEq, List.map_cons]
      constructor
      · rintro ⟨package, hfirst, others, hothers, rfl⟩
        rw [List.map_cons, hfirst, hothers]
      · intro h
        cases listed with
        | nil => cases h
        | cons package others =>
            obtain ⟨hfirst, hothers⟩ := List.cons.inj h
            exact ⟨package, hfirst, others, hothers, rfl⟩

/-- Where there is a package for each job, each one has finished with it. -/
theorem finished_of_packages (h : jobs.mapM Job.package? = some listed) :
    ∀ job ∈ jobs, ∃ package, job.stage = .finished (.ok package) := by
  intro job hjob
  have hstage := List.mem_map_of_mem (f := Job.stage) hjob
  rw [mapM_package?_iff.1 h] at hstage
  obtain ⟨package, _, heq⟩ := List.mem_map.1 hstage
  exact ⟨package, heq.symm⟩

/-- If each job has finished with a package, there is one for each. -/
theorem packages_of_finished (h : ∀ job ∈ jobs, ∃ package, job.stage = .finished (.ok package)) :
    ∃ listed, jobs.mapM Job.package? = some listed := by
  simp only [mapM_package?_iff]
  induction jobs with
  | nil => exact ⟨[], rfl⟩
  | cons job rest ih =>
      obtain ⟨package, hstage⟩ := h job List.mem_cons_self
      obtain ⟨listed, hlisted⟩ := ih fun other hother => h other (List.mem_cons_of_mem _ hother)
      exact ⟨package :: listed, by rw [List.map_cons, List.map_cons, hstage, hlisted]⟩

theorem failure?_eq_some {verdict : Verdict} (h : job.failure? = some verdict) :
    ∃ failure, job.stage = .finished (.error failure) ∧ verdict = .failed job.fetch failure := by
  unfold Job.failure? at h
  split at h
  · rename_i failure hstage
    exact ⟨failure, hstage, (Option.some.inj h).symm⟩
  · cases h

namespace Crew

/-- A failure that is judged is that of a job. -/
theorem judge_failed (h : crew.judge noticed = some (.failed fetch failure)) :
    ⟨fetch, .finished (.error failure)⟩ ∈ crew.jobs := by
  rcases Option.or_eq_some_iff.1 h with hseen | ⟨_, hall⟩
  · obtain ⟨⟨job, index⟩, hmem, hfailure⟩ := List.exists_of_findSome?_eq_some hseen
    obtain ⟨_, hstage, heq⟩ := failure?_eq_some hfailure
    cases heq
    have hjob := (List.mem_zipIdx_iff_getElem?.1 (List.mem_filter.1 hmem).1)
    rw [← hstage]
    exact List.mem_of_getElem? hjob
  · simp at hall

/-- Packages are judged if there is one for each job. -/
theorem judge_done (h : crew.judge noticed = some (.done listed)) :
    crew.jobs.mapM Job.package? = some listed := by
  rcases Option.or_eq_some_iff.1 h with hseen | ⟨_, hall⟩
  · obtain ⟨_, _, hfailure⟩ := List.exists_of_findSome?_eq_some hseen
    obtain ⟨_, _, heq⟩ := failure?_eq_some hfailure
    cases heq
  · obtain ⟨_, hpackages, heq⟩ := Option.map_eq_some_iff.1 hall
    cases heq
    exact hpackages

/-- The waiting does not go on once all jobs have finished and been noticed. -/
theorem judge_isSome (h : ∀ job ∈ crew.jobs, ∃ result, job.stage = .finished result)
    (hnoticed : ∀ index < crew.jobs.length, index ∈ noticed) :
    (crew.judge noticed).isSome := by
  rw [judge, Option.isSome_or, Bool.or_eq_true, Option.isSome_map]
  by_cases hfailed : ∃ job ∈ crew.jobs, ∃ failure, job.stage = .finished (.error failure)
  · -- the failure is noticed
    obtain ⟨job, hmem, failure, hstage⟩ := hfailed
    obtain ⟨index, hindex⟩ := List.mem_iff_getElem?.1 hmem
    left
    rw [List.findSome?_isSome_iff]
    refine ⟨(job, index), List.mem_filter.2 ⟨List.mem_zipIdx_iff_getElem?.2 hindex, ?_⟩, ?_⟩
    · simpa using hnoticed index (List.getElem?_eq_some_iff.1 hindex).1
    · simp [Job.failure?, hstage]
  · -- there is none, so that each job has a package
    right
    obtain ⟨listed, hlisted⟩ : ∃ listed, crew.jobs.mapM Job.package? = some listed := by
      refine packages_of_finished fun job hmem => ?_
      obtain ⟨result, hstage⟩ := h job hmem
      cases result with
      | error failure => exact absurd ⟨job, hmem, failure, hstage⟩ hfailed
      | ok package => exact ⟨package, hstage⟩
    rw [hlisted]
    rfl

@[simp] theorem verdict_work (store : Store) (fetchers : Fetchers) (crew : Crew) (index : Nat) :
    (crew.work store fetchers index).verdict = crew.verdict := by
  unfold work
  split <;> rfl

@[simp] theorem verdict_callOff (crew : Crew) (index : Nat) :
    (crew.callOff index).verdict = crew.verdict := by
  unfold callOff
  split <;> rfl

/-- Where a verdict comes from. -/
theorem verdict_step {verdict : Verdict}
    (h : (crew.step store fetchers turn).verdict = some verdict) :
    crew.verdict = some verdict ∨
      (crew.verdict = none ∧ (crew.step store fetchers turn).jobs = crew.jobs ∧
        ∃ noticed, crew.judge noticed = some verdict) := by
  cases turn with
  | work index =>
      simp only [step, verdict_work] at h
      exact Or.inl h
  | collect noticed =>
      rcases Option.or_eq_some_iff.1 h with hfirst | ⟨hnone, hjudge⟩
      · exact Or.inl hfirst
      · exact Or.inr ⟨hnone, rfl, noticed, hjudge⟩
  | callOff index =>
      simp only [step, verdict_callOff] at h
      exact Or.inl h

/-- The first verdict stands. -/
theorem verdict_stands {verdict : Verdict} (h : crew.verdict = some verdict) (store : Store)
    (fetchers : Fetchers) (turn : Turn) :
    (crew.step store fetchers turn).verdict = some verdict := by
  cases turn with
  | work index => simpa only [step, verdict_work] using h
  | collect noticed => simp only [step, h, Option.some_or]
  | callOff index => simpa only [step, verdict_callOff] using h

/-- Nothing happens to jobs that are all over. -/
theorem jobs_of_over (h : ∀ job ∈ crew.jobs, job.stage.isOver = true) (store : Store)
    (fetchers : Fetchers) (turn : Turn) :
    (crew.step store fetchers turn).jobs = crew.jobs := by
  refine List.ext_getElem? fun index => ?_
  cases hjob : crew.jobs[index]? with
  | none =>
      have hlength := List.getElem?_eq_none_iff.1 hjob
      exact List.getElem?_eq_none (by rw [length_step]; exact hlength)
  | some job => exact step_of_over hjob (h job (List.mem_of_getElem? hjob)) store fetchers turn

end Crew

theorem over_of_packages (h : jobs.mapM Job.package? = some listed) :
    ∀ job ∈ jobs, job.stage.isOver = true := by
  intro job hjob
  obtain ⟨package, hstage⟩ := finished_of_packages h job hjob
  rw [hstage]
  rfl

/-- **A verdict is backed by the jobs**, and no job is called off without one. -/
structure Ruled (crew : Crew) : Prop where
  undecided : crew.verdict = none → ∀ job ∈ crew.jobs, job.stage ≠ .calledOff
  failed : ∀ fetch failure, crew.verdict = some (.failed fetch failure) →
    ⟨fetch, .finished (.error failure)⟩ ∈ crew.jobs
  done : ∀ listed, crew.verdict = some (.done listed) →
    crew.jobs.mapM Job.package? = some listed

theorem ruled_start (fetches : List PlannedFetch) (tree : FileTree) :
    Ruled (.start fetches tree) where
  undecided := by
    intro _ job hjob hstage
    obtain ⟨fetch, _, rfl⟩ := List.mem_map.1 hjob
    cases hstage
  failed := nofun
  done := nofun

/-- No step of a worker calls its job off. -/
theorem Stage.next_ne_calledOff (h : stage ≠ .calledOff) :
    (stage.next store fetcher fetch tree).1 ≠ .calledOff := by
  cases stage with
  | waiting => nofun
  | started =>
      show Stage.answered fetch (fetcher fetch.url) ≠ .calledOff
      cases fetcher fetch.url <;> nofun
  | storing data progress =>
      show Stage.ofProgress fetch data _ ≠ .calledOff
      cases ((putOf fetch data).step store progress tree).1 <;> nofun
  | finished result => nofun
  | calledOff => exact absurd rfl h

theorem Ruled.step (h : Ruled crew) (turn : Turn) : Ruled (crew.step store fetchers turn) where
  undecided := by
    intro hnone job hjob
    have hbefore : crew.verdict = none := by
      cases hverdict : crew.verdict with
      | none => rfl
      | some verdict =>
          rw [Crew.verdict_stands hverdict] at hnone
          cases hnone
    obtain ⟨index, hindex⟩ := List.mem_iff_getElem?.1 hjob
    obtain ⟨old, hold, _, hstage⟩ := Crew.jobs_step hindex
    have hopen := h.undecided hbefore old (List.mem_of_getElem? hold)
    rcases hstage with ⟨_, hstage⟩ | ⟨_, rfl⟩ | ⟨_, hsome, _⟩
    · rw [hstage]
      exact Stage.next_ne_calledOff hopen
    · exact hopen
    · rw [hbefore] at hsome
      cases hsome
  failed := by
    intro fetch failure hverdict
    rcases Crew.verdict_step hverdict with hbefore | ⟨_, hjobs, noticed, hjudge⟩
    · obtain ⟨index, hindex⟩ := List.mem_iff_getElem?.1 (h.failed fetch failure hbefore)
      exact List.mem_of_getElem? (Crew.step_of_over hindex rfl store fetchers turn)
    · rw [hjobs]
      exact Crew.judge_failed hjudge
  done := by
    intro listed hverdict
    rcases Crew.verdict_step hverdict with hbefore | ⟨_, hjobs, noticed, hjudge⟩
    · have hall := h.done listed hbefore
      rw [Crew.jobs_of_over (over_of_packages hall)]
      exact hall
    · rw [hjobs]
      exact Crew.judge_done hjudge

theorem Ruled.run (h : Ruled crew) (schedule : List Turn) :
    Ruled (crew.run store fetchers schedule) := by
  induction schedule generalizing crew with
  | nil => exact h
  | cons turn rest ih => exact ih (h.step turn)

/-! ## Ends -/

namespace Crew

variable {fetched : Run (List FetchedPackage)}

/-- **What is left in the end** comes from the verdict. -/
theorem ended?_eq_some (h : crew.ended? = some fetched) :
    (∀ job ∈ crew.jobs, job.stage.isOver = true) ∧ fetched.tree = crew.tree ∧
      fetched.calls = crew.calls ∧
      ((∃ listed, crew.verdict = some (.done listed) ∧ fetched.outcome = .ok listed) ∨
        ∃ fetch failure, crew.verdict = some (.failed fetch failure) ∧
          fetched.outcome = .error failure) := by
  unfold ended? at h
  split at h
  · rename_i hover
    obtain ⟨verdict, hverdict, rfl⟩ := Option.map_eq_some_iff.1 h
    refine ⟨by simpa using hover, ?_⟩
    cases verdict with
    | failed fetch failure => exact ⟨rfl, rfl, Or.inr ⟨fetch, failure, hverdict, rfl⟩⟩
    | done listed => exact ⟨rfl, rfl, Or.inl ⟨listed, hverdict, rfl⟩⟩
  · cases h

/-- **Where packages are returned**, each job has finished with one. -/
theorem finished_of_ended (h : Ruled crew) (hended : crew.ended? = some fetched)
    (hout : fetched.outcome = .ok listed) :
    ∀ job ∈ crew.jobs, ∃ package, job.stage = .finished (.ok package) := by
  obtain ⟨_, _, _, ⟨packages, hverdict, _⟩ | ⟨_, _, _, hfailed⟩⟩ := ended?_eq_some hended
  · exact finished_of_packages (h.done packages hverdict)
  · rw [hout] at hfailed
    cases hfailed

/-- A crew is settled when there is a verdict and every job is over. -/
theorem ended?_isSome (hover : ∀ job ∈ crew.jobs, job.stage.isOver = true)
    (hverdict : crew.verdict.isSome) : crew.ended?.isSome := by
  rw [ended?, if_pos (by simpa using hover), Option.isSome_map]
  exact hverdict

theorem run_cons (store : Store) (fetchers : Fetchers) (turn : Turn) (schedule : List Turn)
    (crew : Crew) :
    crew.run store fetchers (turn :: schedule) =
      (crew.step store fetchers turn).run store fetchers schedule := rfl

@[simp] theorem run_append (store : Store) (fetchers : Fetchers) (first second : List Turn)
    (crew : Crew) :
    crew.run store fetchers (first ++ second) =
      (crew.run store fetchers first).run store fetchers second :=
  List.foldl_append

/-- **A crew in which every worker gets enough turns settles** once everybody is noticed. -/
theorem settled_run (h : Ruled crew)
    (hturns : ∀ index < crew.jobs.length, 6 ≤ schedule.count (.work index)) :
    (crew.run store fetchers (schedule ++ [.collect (List.range crew.jobs.length)])).ended?.isSome
    := by
  have hruled : Ruled (crew.run store fetchers schedule) := h.run schedule
  have hlength : (crew.run store fetchers schedule).jobs.length = crew.jobs.length := by
    simpa using congrArg List.length (fetches_run store fetchers schedule crew)
  have hover : ∀ job ∈ (crew.run store fetchers schedule).jobs, job.stage.isOver = true := by
    intro job hjob
    obtain ⟨index, hindex⟩ := List.mem_iff_getElem?.1 hjob
    obtain ⟨first, hfirst, hle⟩ := left_run hindex
    have hcount := hturns index (List.getElem?_eq_some_iff.1 hfirst).1
    have hsix : first.stage.left ≤ 6 := first.stage.left_le
    exact Stage.over_of_left (by omega)
  rw [run_append]
  refine ended?_isSome hover ?_
  show ((crew.run store fetchers schedule).verdict.or _).isSome
  cases hverdict : (crew.run store fetchers schedule).verdict with
  | some verdict => rfl
  | none =>
      rw [Option.none_or]
      refine judge_isSome (fun job hjob => ?_) fun index hindex => ?_
      · -- no job was called off, so that all have finished
        have hopen := hruled.undecided hverdict job hjob
        have hdone := hover job hjob
        cases hstage : job.stage with
        | finished result => exact ⟨result, rfl⟩
        | calledOff => exact absurd hstage hopen
        | waiting => rw [hstage] at hdone; cases hdone
        | started => rw [hstage] at hdone; cases hdone
        | storing data progress => rw [hstage] at hdone; cases hdone
      · rw [← hlength]
        exact List.mem_range.2 hindex

/-- Turns that settle any crew of a size. -/
def settling (count : Nat) : List Turn :=
  (List.range count).flatMap (fun index => List.replicate 6 (.work index)) ++
    [.collect (List.range count)]

theorem count_settling {count : Nat} (h : index < count) :
    6 ≤ ((List.range count).flatMap fun index => List.replicate 6 (Turn.work index)).count
      (.work index) := by
  have hsub : List.Sublist (List.replicate 6 (Turn.work index))
      ((List.range count).flatMap fun index => List.replicate 6 (Turn.work index)) := by
    obtain ⟨before, behind, hsplit⟩ := List.append_of_mem (List.mem_range.2 h)
    rw [hsplit, List.flatMap_append, List.flatMap_cons]
    exact (List.sublist_append_left _ _).trans (List.sublist_append_right _ _)
  have hle := hsub.count_le (Turn.work index)
  rwa [List.count_replicate_self] at hle

/-- **Every crew can be settled**, whatever turns were taken. -/
theorem settled_of_any (store : Store) (fetchers : Fetchers) (h : Ruled crew)
    (schedule : List Turn) :
    (crew.run store fetchers (schedule ++ settling crew.jobs.length)).ended?.isSome := by
  rw [settling, ← List.append_assoc]
  refine settled_run h fun index hindex => ?_
  rw [List.count_append]
  exact Nat.le_trans (count_settling hindex) (Nat.le_add_left _ _)

end Crew

/-! ## One job after another -/

/-- A download up to its first refusal. -/
theorem run_fetchOne (store : Store) (fetcher : Fetcher) (fetch : PlannedFetch) (tree : FileTree) :
    (fetchOne store fetcher fetch).run tree =
      match fetcher fetch.url with
      | .error failure => (.error (failure.attach [("package", fetch.package)]), tree)
      | .ok data =>
        let stored := (store.put fetch.cacheKey fetch.url data fetch.integrity).run tree
        (resultOf fetch data stored.1, stored.2) := by
  unfold fetchOne resultOf
  rw [FileTree.Action.run_restating, Store.run_bind, FileTree.Action.run_inspect]
  cases fetcher fetch.url with
  | error failure => rfl
  | ok data =>
      simp only
      rw [Store.run_bind]
      rcases (store.put fetch.cacheKey fetch.url data fetch.integrity).run tree with
        ⟨result, after⟩
      cases result <;> rfl

namespace Crew

theorem work_eq (h : crew.jobs[index]? = some ⟨fetch, stage⟩) :
    crew.step store fetchers (.work index) =
      { crew with
        tree := (stage.next store (fetchers index) fetch crew.tree).2
        jobs := crew.jobs.set index
          ⟨fetch, (stage.next store (fetchers index) fetch crew.tree).1⟩
        log := crew.log ++ stage.logged fetch
        calls := crew.calls ++ stage.asked fetch } := by
  simp only [step, work, h]

/-- A worker has nothing to do at a job that is over. -/
theorem step_work_of_over (h : crew.jobs[index]? = some job) (hover : job.stage.isOver = true) :
    crew.step store fetchers (.work index) = crew := by
  obtain ⟨fetch, stage⟩ := job
  obtain ⟨hnext, hlogged, hasked⟩ :=
    Stage.next_of_over hover store (fetchers index) fetch crew.tree
  dsimp only at hnext hlogged hasked
  have hsame : crew.jobs.set index ⟨fetch, stage⟩ = crew.jobs := by
    rw [← (List.getElem?_eq_some_iff.1 h).2, List.set_getElem_self]
  rw [work_eq h, hnext, hlogged, hasked, List.append_nil, List.append_nil, hsame]

theorem run_working_of_over (h : crew.jobs[index]? = some job) (hover : job.stage.isOver = true)
    (count : Nat) : crew.run store fetchers (List.replicate count (.work index)) = crew := by
  induction count with
  | zero => rfl
  | succ count ih =>
      rw [List.replicate_succ, run_cons, step_work_of_over h hover, ih]

/-- Turns of a worker that stores are the steps of its put. -/
theorem run_storing (h : crew.jobs[index]? = some ⟨fetch, .ofProgress fetch data progress⟩)
    (count : Nat) :
    crew.run store fetchers (List.replicate count (.work index)) =
      { crew with
        tree := ((fun state : Progress × FileTree =>
          (putOf fetch data).step store state.1 state.2)^[count] (progress, crew.tree)).2
        jobs := crew.jobs.set index ⟨fetch, .ofProgress fetch data
          ((fun state : Progress × FileTree =>
            (putOf fetch data).step store state.1 state.2)^[count] (progress, crew.tree)).1⟩ } := by
  have hlt := (List.getElem?_eq_some_iff.1 h).1
  induction count generalizing crew progress with
  | zero =>
      have hsame : crew.jobs.set index ⟨fetch, .ofProgress fetch data progress⟩ = crew.jobs := by
        rw [← (List.getElem?_eq_some_iff.1 h).2, List.set_getElem_self]
      simp only [List.replicate_zero, run, List.foldl_nil, Function.iterate_zero_apply, hsame]
  | succ count ih =>
      rw [List.replicate_succ, run_cons, work_eq h, Stage.next_ofProgress,
        Stage.logged_ofProgress, Stage.asked_ofProgress, List.append_nil, List.append_nil,
        Function.iterate_succ_apply]
      have hnext : (crew.jobs.set index ⟨fetch, .ofProgress fetch data
          ((putOf fetch data).step store progress crew.tree).1⟩)[index]? =
          some ⟨fetch, .ofProgress fetch data
            ((putOf fetch data).step store progress crew.tree).1⟩ := List.getElem?_set_self hlt
      have hlater := @ih { crew with
        tree := ((putOf fetch data).step store progress crew.tree).2
        jobs := crew.jobs.set index ⟨fetch, .ofProgress fetch data
          ((putOf fetch data).step store progress crew.tree).1⟩ } _ hnext (by simpa using hlt)
      rw [hlater]
      simp only [List.set_set]

/-- **Five turns in a row are a download.** -/
theorem run_working (h : crew.jobs[index]? = some ⟨fetch, .waiting⟩) :
    crew.run store fetchers (List.replicate 5 (.work index)) =
      { crew with
        tree := ((fetchOne store (fetchers index) fetch).run crew.tree).2
        jobs := crew.jobs.set index
          ⟨fetch, .finished ((fetchOne store (fetchers index) fetch).run crew.tree).1⟩
        log := crew.log ++ [started fetch]
        calls := crew.calls ++ [fetch.url] } := by
  have hlt := (List.getElem?_eq_some_iff.1 h).1
  have hsplit : List.replicate 5 (Turn.work index) =
      .work index :: .work index :: List.replicate 3 (.work index) := rfl
  have hstarted : (crew.jobs.set index ⟨fetch, .started⟩)[index]? = some ⟨fetch, .started⟩ :=
    List.getElem?_set_self hlt
  have hsecond := @work_eq store fetchers
    { crew with
      jobs := crew.jobs.set index ⟨fetch, .started⟩
      log := crew.log ++ [started fetch] } fetch .started index hstarted
  simp only [Stage.next_started, Stage.logged, Stage.asked, List.set_set,
    List.append_nil] at hsecond
  rw [hsplit, run_cons, run_cons, work_eq h]
  simp only [Stage.next_waiting, Stage.logged, Stage.asked, List.append_nil]
  rw [hsecond, run_fetchOne]
  -- the answer of the fetcher decides whether the put takes its three steps
  cases hanswer : fetchers index fetch.url with
  | error failure =>
      have hthree := @run_working_of_over store fetchers
        { crew with
          jobs := crew.jobs.set index
            ⟨fetch, .finished (.error (failure.attach [("package", fetch.package)]))⟩
          log := crew.log ++ [started fetch]
          calls := crew.calls ++ [fetch.url] } _ index (List.getElem?_set_self hlt) rfl 3
      rw [Stage.answered_error, hthree]
  | ok data =>
      have hthree := @run_storing store fetchers
        { crew with
          jobs := crew.jobs.set index ⟨fetch, .ofProgress fetch data .waiting⟩
          log := crew.log ++ [started fetch]
          calls := crew.calls ++ [fetch.url] } fetch data .waiting index
        (List.getElem?_set_self hlt) 3
      have halone := Store.steps_alone store (putOf fetch data) crew.tree
      simp only [halone, List.set_set, Stage.ofProgress_ended] at hthree
      rw [Stage.answered_ok, hthree]
      simp only [putOf]

/-- Nothing happens to a crew that is settled. -/
theorem run_of_settled (hover : ∀ job ∈ crew.jobs, job.stage.isOver = true)
    (h : crew.verdict.isSome) (schedule : List Turn) :
    crew.run store fetchers schedule = crew := by
  induction schedule with
  | nil => rfl
  | cons turn rest ih =>
      have hfirst : crew.step store fetchers turn = crew := by
        obtain ⟨verdict, hverdict⟩ := Option.isSome_iff_exists.1 h
        cases turn with
        | work index =>
            cases hjob : crew.jobs[index]? with
            | none => simp only [step, work, hjob]
            | some job => exact step_work_of_over hjob (hover job (List.mem_of_getElem? hjob))
        | collect noticed =>
            rw [step, hverdict, Option.some_or, ← hverdict]
        | callOff index =>
            cases hjob : crew.jobs[index]? with
            | none => simp only [step, callOff, hverdict, hjob]
            | some job =>
                obtain ⟨fetch, stage⟩ := job
                have hstage := hover _ (List.mem_of_getElem? hjob)
                cases stage with
                | waiting => cases hstage
                | _ => simp only [step, callOff, hverdict, hjob]
      rw [run_cons, hfirst, ih]

/-! ### Rounds -/

/-- The turns in which a worker does a whole job, it is noticed, and jobs that wait are called
off if it has failed. -/
def round (count index : Nat) : List Turn :=
  List.replicate 5 (.work index) ++
    .collect (List.range count) :: (List.range count).map .callOff

/-- The turns in which jobs are done one after another. -/
def inTurn (count : Nat) : List Turn :=
  .collect [] :: (List.range count).flatMap (round count)

/-- The verdict once everybody is noticed. -/
theorem judge_all (crew : Crew) :
    crew.judge (List.range crew.jobs.length) =
      (crew.jobs.findSome? Job.failure?).or ((crew.jobs.mapM Job.package?).map .done) := by
  have hall : crew.jobs.zipIdx.filter (fun job => job.2 ∈ List.range crew.jobs.length) =
      crew.jobs.zipIdx := by
    rw [List.filter_eq_self]
    rintro ⟨job, index⟩ hmem
    have := (List.getElem?_eq_some_iff.1 (List.mem_zipIdx_iff_getElem?.1 hmem)).1
    simpa using this
  have hfst : crew.jobs.zipIdx.findSome? (fun job => job.1.failure?) =
      crew.jobs.findSome? Job.failure? := by
    rw [← List.zipIdx_map_fst 0 crew.jobs, List.findSome?_map]
    simp [Function.comp_def]
  rw [judge, hall, hfst]

/-- As long as there is no verdict no job is called off. -/
theorem run_callOffs_undecided (h : crew.verdict = none) (indices : List Nat) :
    crew.run store fetchers (indices.map .callOff) = crew := by
  induction indices with
  | nil => rfl
  | cons index rest ih =>
      have hfirst : crew.step store fetchers (.callOff index) = crew := by
        simp only [step, callOff, h]
      rw [List.map_cons, run_cons, hfirst, ih]

/-- Behind a verdict every job that waits is called off. -/
theorem run_callOffs (h : crew.verdict.isSome) (indices : List Nat)
    (hjobs : ∀ index job, crew.jobs[index]? = some job → job.stage.isOver = true ∨
      (job.stage = .waiting ∧ index ∈ indices)) :
    ∃ jobs, crew.run store fetchers (indices.map .callOff) = { crew with jobs := jobs } ∧
      ∀ job ∈ jobs, job.stage.isOver = true := by
  induction indices generalizing crew with
  | nil =>
      refine ⟨crew.jobs, rfl, fun job hjob => ?_⟩
      obtain ⟨index, hindex⟩ := List.mem_iff_getElem?.1 hjob
      rcases hjobs index job hindex with hover | ⟨_, hmem⟩
      · exact hover
      · exact absurd hmem List.not_mem_nil
  | cons index rest ih =>
      have hsame : crew.callOff index = { crew with jobs := (crew.callOff index).jobs } := by
        unfold callOff
        split <;> rfl
      have hnext : ∀ other job, (crew.callOff index).jobs[other]? = some job →
          job.stage.isOver = true ∨ (job.stage = .waiting ∧ other ∈ rest) := by
        intro other job hother
        have hlater : (crew.step store fetchers (.callOff index)).jobs[other]? = some job := hother
        obtain ⟨old, hold, _, hstage⟩ := jobs_step hlater
        rcases hstage with ⟨hturn, _⟩ | ⟨_, rfl⟩ | ⟨_, _, _, hstage⟩
        · cases hturn
        · rcases hjobs other job hold with hover | ⟨hwaiting, hmem⟩
          · exact Or.inl hover
          · refine Or.inr ⟨hwaiting, (List.mem_cons.1 hmem).resolve_left ?_⟩
            -- its own turn would have called it off
            rintro rfl
            obtain ⟨fetch, stage⟩ := job
            dsimp only at hwaiting
            subst hwaiting
            obtain ⟨verdict, hverdict⟩ := Option.isSome_iff_exists.1 h
            have hlt := (List.getElem?_eq_some_iff.1 hold).1
            simp only [callOff, hverdict, hold] at hother
            rw [List.getElem?_set_self hlt] at hother
            cases hother
        · rw [hstage]
          exact Or.inl rfl
      have hverdict : (crew.callOff index).verdict.isSome := by
        rw [verdict_callOff]
        exact h
      obtain ⟨jobs, hrun, hover⟩ := ih hverdict hnext
      refine ⟨jobs, ?_, hover⟩
      rw [List.map_cons, run_cons]
      show (crew.callOff index).run store fetchers _ = _
      rw [hrun, hsame]

/-- The jobs of downloads that have succeeded. -/
def succeeded (done : List (PlannedFetch × FetchedPackage)) : List Job :=
  done.map fun one => ⟨one.1, .finished (.ok one.2)⟩

variable {done : List (PlannedFetch × FetchedPackage)}

theorem findSome?_succeeded (done : List (PlannedFetch × FetchedPackage)) :
    (succeeded done).findSome? Job.failure? = none := by
  rw [List.findSome?_eq_none_iff]
  intro job hjob
  obtain ⟨one, _, rfl⟩ := List.mem_map.1 hjob
  rfl

theorem mapM_succeeded (done : List (PlannedFetch × FetchedPackage)) :
    (succeeded done).mapM Job.package? = some (done.map Prod.snd) := by
  rw [mapM_package?_iff]
  simp [succeeded]

theorem over_succeeded : ∀ job ∈ succeeded done, job.stage.isOver = true :=
  over_of_packages (mapM_succeeded done)

/-- A crew of which some jobs have succeeded and the rest has not been taken up. -/
def between (done : List (PlannedFetch × FetchedPackage)) (rest : List PlannedFetch)
    (tree : FileTree) (log : Log) (calls : List String) : Crew where
  tree := tree
  jobs := succeeded done ++ rest.map (⟨·, .waiting⟩)
  verdict := if rest = [] then some (.done (done.map Prod.snd)) else none
  log := log
  calls := calls

variable {rest : List PlannedFetch} {log : Log} {calls : List String}

/-- The turn of a job among jobs that have succeeded and jobs that wait. -/
theorem run_working_between (store : Store) (fetcher : Fetcher) :
    (between done (fetch :: rest) tree log calls).run store (fun _ => fetcher)
        (List.replicate 5 (.work done.length)) =
      ⟨((fetchOne store fetcher fetch).run tree).2,
        succeeded done ++
          ⟨fetch, .finished ((fetchOne store fetcher fetch).run tree).1⟩ ::
            rest.map (⟨·, .waiting⟩),
        none, log ++ [started fetch], calls ++ [fetch.url]⟩ := by
  have hlength : (succeeded done).length = done.length := by simp [succeeded]
  have hjob : (between done (fetch :: rest) tree log calls).jobs[done.length]? =
      some ⟨fetch, .waiting⟩ := by
    rw [← hlength]
    simp [between]
  rw [run_working hjob]
  simp only [between, List.map_cons, reduceCtorEq, if_false, Crew.mk.injEq, true_and, and_true]
  rw [← hlength]
  simp

/-- Once everybody is noticed, jobs that wait are called off if there is a verdict. -/
theorem run_noticed {noticed : List Nat} (hnone : crew.verdict = none)
    (hnoticed : noticed = List.range crew.jobs.length)
    (hjobs : ∀ job ∈ crew.jobs, job.stage.isOver = true ∨ job.stage = .waiting) :
    ∃ jobs, crew.run store fetchers (.collect noticed :: noticed.map .callOff) =
        { crew with jobs := jobs, verdict := crew.judge noticed } ∧
      ((crew.judge noticed).isSome → ∀ job ∈ jobs, job.stage.isOver = true) ∧
      (crew.judge noticed = none ∨ (∀ job ∈ crew.jobs, job.stage.isOver = true) →
        jobs = crew.jobs) := by
  rw [run_cons, step, hnone, Option.none_or]
  cases hjudged : crew.judge noticed with
  | none =>
      refine ⟨crew.jobs, run_callOffs_undecided rfl _, fun hsome => ?_, fun _ => rfl⟩
      cases hsome
  | some verdict =>
      have hwaiting : ∀ index job, crew.jobs[index]? = some job → job.stage.isOver = true ∨
          (job.stage = .waiting ∧ index ∈ noticed) := by
        intro index job hjob
        rcases hjobs job (List.mem_of_getElem? hjob) with hover | hwaiting
        · exact Or.inl hover
        · rw [hnoticed]
          exact Or.inr ⟨hwaiting, List.mem_range.2 (List.getElem?_eq_some_iff.1 hjob).1⟩
      obtain ⟨jobs, hrun, hover⟩ := @run_callOffs store fetchers
        { crew with verdict := some verdict } rfl noticed hwaiting
      refine ⟨jobs, hrun, fun _ => hover, fun hdone => ?_⟩
      have hall := hdone.resolve_left (Option.some_ne_none verdict)
      have hstays := @run_of_settled store fetchers { crew with verdict := some verdict } hall rfl
        (noticed.map .callOff)
      rw [hrun] at hstays
      exact (Crew.mk.inj hstays).2.1

theorem findSome?_waiting (rest : List PlannedFetch) :
    (rest.map (Job.mk · .waiting)).findSome? Job.failure? = none := by
  rw [List.findSome?_eq_none_iff]
  intro job hjob
  obtain ⟨fetch, _, rfl⟩ := List.mem_map.1 hjob
  rfl

/-- What is noticed behind the turn of a job. -/
theorem judge_between (job : Job) :
    judge ⟨tree, succeeded done ++ job :: rest.map (⟨·, .waiting⟩), none, log, calls⟩
        (List.range (done.length + (rest.length + 1))) =
      job.failure?.or (((succeeded done ++ job :: rest.map (⟨·, .waiting⟩)).mapM Job.package?).map
        .done) := by
  have hcount : done.length + (rest.length + 1) =
      (succeeded done ++ job :: rest.map (Job.mk · .waiting)).length := by
    simp [succeeded]
  have hall := judge_all
    ⟨tree, succeeded done ++ job :: rest.map (⟨·, .waiting⟩), none, log, calls⟩
  dsimp only at hall
  rw [hcount, hall, List.findSome?_append, findSome?_succeeded, Option.none_or,
    List.findSome?_cons, findSome?_waiting]
  cases job.failure? <;> rfl

theorem over_or_waiting {job : Job} (hover : job.stage.isOver = true) :
    ∀ other ∈ succeeded done ++ job :: rest.map (Job.mk · .waiting),
      other.stage.isOver = true ∨ other.stage = .waiting := by
  intro other hother
  rcases List.mem_append.1 hother with hmem | hmem
  · exact Or.inl (over_succeeded other hmem)
  · rcases List.mem_cons.1 hmem with rfl | hmem
    · exact Or.inl hover
    · obtain ⟨fetch, _, rfl⟩ := List.mem_map.1 hmem
      exact Or.inr rfl

/-- **A job that fails in its turn** settles the crew. -/
theorem run_round_error (hone : (fetchOne store fetcher fetch).run tree = (.error failure, after)) :
    ∃ jobs, (between done (fetch :: rest) tree log calls).run store (fun _ => fetcher)
        (round (done.length + (rest.length + 1)) done.length) =
      ⟨after, jobs, some (.failed fetch failure), log ++ [started fetch], calls ++ [fetch.url]⟩ ∧
      ∀ job ∈ jobs, job.stage.isOver = true := by
  rw [round, run_append, run_working_between, hone]
  obtain ⟨jobs, hrun, hover, _⟩ := @run_noticed store (fun _ => fetcher)
    ⟨after, succeeded done ++ ⟨fetch, .finished (.error failure)⟩ :: rest.map (⟨·, .waiting⟩),
      none, log ++ [started fetch], calls ++ [fetch.url]⟩
    (List.range (done.length + (rest.length + 1))) rfl (by simp [succeeded])
    (over_or_waiting rfl)
  rw [judge_between] at hrun hover
  exact ⟨jobs, hrun, hover rfl⟩

/-- **A job that succeeds in its turn** joins those that have. -/
theorem run_round_ok {package : FetchedPackage}
    (hone : (fetchOne store fetcher fetch).run tree = (.ok package, after)) :
    (between done (fetch :: rest) tree log calls).run store (fun _ => fetcher)
        (round (done.length + (rest.length + 1)) done.length) =
      between (done ++ [(fetch, package)]) rest after (log ++ [started fetch])
        (calls ++ [fetch.url]) := by
  have hjobs : succeeded done ++
      ⟨fetch, .finished (.ok package)⟩ :: rest.map (Job.mk · .waiting) =
        succeeded (done ++ [(fetch, package)]) ++ rest.map (⟨·, .waiting⟩) := by
    simp [succeeded]
  rw [round, run_append, run_working_between, hone]
  obtain ⟨jobs, hrun, _, hsame⟩ := @run_noticed store (fun _ => fetcher)
    ⟨after, succeeded done ++ ⟨fetch, .finished (.ok package)⟩ :: rest.map (⟨·, .waiting⟩),
      none, log ++ [started fetch], calls ++ [fetch.url]⟩
    (List.range (done.length + (rest.length + 1))) rfl (by simp [succeeded])
    (over_or_waiting rfl)
  rw [judge_between] at hrun hsame
  dsimp only at hrun hsame
  rw [hrun, between]
  rw [hjobs] at hsame ⊢
  by_cases hrest : rest = []
  · -- it was the last one
    subst hrest
    rw [List.map_nil, List.append_nil] at hsame ⊢
    rw [hsame (Or.inr over_succeeded), mapM_succeeded]
    rfl
  · -- others are still waiting
    have hnone : (succeeded (done ++ [(fetch, package)]) ++
        rest.map (Job.mk · .waiting)).mapM Job.package? = none := by
      cases hall : (succeeded (done ++ [(fetch, package)]) ++
          rest.map (Job.mk · .waiting)).mapM Job.package? with
      | none => rfl
      | some listed =>
          obtain ⟨next, hnext⟩ := List.exists_mem_of_ne_nil rest hrest
          have hover := over_of_packages hall ⟨next, .waiting⟩
            (List.mem_append_right _ (List.mem_map_of_mem hnext))
          cases hover
    rw [hnone] at hsame ⊢
    rw [hsame (Or.inl rfl), if_neg hrest]
    rfl

/-- **Jobs that are done one after another** leave what downloads one after another leave. -/
theorem ended?_rounds (store : Store) (fetcher : Fetcher)
    (done : List (PlannedFetch × FetchedPackage))
    (rest : List PlannedFetch) (tree : FileTree) (log : Log) (calls : List String) :
    ((between done rest tree log calls).run store (fun _ => fetcher)
        ((List.range' done.length rest.length).flatMap
          (round (done.length + rest.length)))).ended? =
      some ⟨(fetchAll store fetcher rest tree).outcome.map (done.map Prod.snd ++ ·),
        (fetchAll store fetcher rest tree).tree, log ++ (fetchAll store fetcher rest tree).log,
        calls ++ (fetchAll store fetcher rest tree).calls, []⟩ := by
  induction rest generalizing done tree log calls with
  | nil =>
      have hover : (succeeded done).all (·.stage.isOver) = true := by
        simpa using fun job hjob => over_succeeded job hjob
      simp [between, run, fetchAll, ended?, hover, Except.map]
  | cons fetch rest ih =>
      rw [List.length_cons, List.range'_succ, List.flatMap_cons, run_append]
      rcases hone : (fetchOne store fetcher fetch).run tree with ⟨result, after⟩
      cases result with
      | error failure =>
          obtain ⟨jobs, hrun, hover⟩ :=
            @run_round_error store fetcher _ _ _ _ done rest log calls hone
          have hall : jobs.all (·.stage.isOver) = true := by simpa using hover
          rw [hrun, run_of_settled hover rfl]
          simp only [ended?, hall, if_true, Option.map_some, fetchAll, hone, Except.map,
            List.append_assoc, List.cons_append, List.nil_append]
      | ok package =>
          have hlater := ih (done ++ [(fetch, package)]) after (log ++ [started fetch])
            (calls ++ [fetch.url])
          have hcount : (done ++ [(fetch, package)]).length + rest.length =
              done.length + (rest.length + 1) := by
            rw [List.length_append, List.length_singleton]
            omega
          rw [hcount, List.length_append, List.length_singleton] at hlater
          rw [run_round_ok hone, hlater]
          simp only [fetchAll, hone, List.append_assoc, List.cons_append, List.nil_append,
            List.map_append, List.map_cons, List.map_nil]
          cases (fetchAll store fetcher rest after).outcome with
          | error failure => rfl
          | ok listed => simp [Except.map]

/-- Fetching gives no warnings; planning does. -/
theorem warnings_fetchAll (store : Store) (fetcher : Fetcher) (fetches : List PlannedFetch)
    (tree : FileTree) : (fetchAll store fetcher fetches tree).warnings = [] := by
  unfold fetchAll
  split
  · rfl
  · split <;> rfl

/-- **Jobs in turn are downloads one after another.** -/
theorem ended?_inTurn (store : Store) (fetcher : Fetcher) (fetches : List PlannedFetch)
    (tree : FileTree) :
    ((start fetches tree).run store (fun _ => fetcher) (inTurn fetches.length)).ended? =
      some (fetchAll store fetcher fetches tree) := by
  have hstart : (start fetches tree).step store (fun _ => fetcher) (.collect []) =
      between [] fetches tree [] [] := by
    simp only [step, judge, Option.none_or, start, between, succeeded, List.map_nil,
      List.nil_append]
    cases fetches with
    | nil => rfl
    | cons fetch rest => simp [Job.package?]
  have hrounds := ended?_rounds store fetcher [] fetches tree [] []
  simp only [List.length_nil, Nat.zero_add, List.map_nil, List.nil_append] at hrounds
  rw [inTurn, run_cons, hstart, List.range_eq_range', hrounds]
  have hwarnings := warnings_fetchAll store fetcher fetches tree
  rcases hall : fetchAll store fetcher fetches tree with ⟨outcome, after, log, calls, warnings⟩
  rw [hall] at hwarnings
  dsimp only at hwarnings
  rw [hwarnings]
  cases outcome <;> rfl

end Crew

/-! ## Runs in turn -/

theorem packages_eq (store : Store) (policy : Policy) (fetcher : Fetcher) (version : Option Int)
    (map : List (String × Package)) (tree : FileTree) :
    packages store policy fetcher version map tree =
      match Plan.make policy map with
      | ⟨.error failure, warnings⟩ => ⟨.error failure, tree, [], [], warnings⟩
      | ⟨.ok plan, warnings⟩ =>
        reported plan version warnings (fetchAll store fetcher plan.fetches tree) := rfl

/-- **Running alone is running with a crew** that does one job after another. -/
theorem packages_inTurn {plan : Plan} (hplan : (Plan.make policy map).result = .ok plan)
    (store : Store) (fetcher : Fetcher) (version : Option Int) (tree : FileTree) :
    packagesBy store policy (fun _ => fetcher) version map (Crew.inTurn plan.fetches.length) tree =
      some (packages store policy fetcher version map tree) := by
  rw [packages_eq, packagesBy]
  rcases hmake : Plan.make policy map with ⟨result, warnings⟩
  rw [hmake] at hplan
  dsimp only at hplan
  subst hplan
  simp only [Crew.ended?_inTurn, Option.map_some]

theorem lockfile_eq (path out : String) (policy : Policy) (fetcher : Fetcher) (tree : FileTree) :
    lockfile path out policy fetcher tree =
      match Lockfile.read tree (Path.ofString path) with
      | .error failure => ⟨.error failure, tree, [], [], []⟩
      | .ok (document, lock) =>
        match lock.normalize with
        | .error failure => ⟨.error failure, tree, [lockfileRead path lock], [], []⟩
        | .ok map =>
          closing (lockfileRead path lock) (Path.ofString out) document
            (packages ⟨(Path.ofString out).join storeDirectory⟩ policy fetcher (some lock.version)
              map tree) := rfl

/-- Running alone on a lockfile is running on it with a crew, too. -/
theorem lockfile_inTurn (path out : String) (policy : Policy) (fetcher : Fetcher)
    (tree : FileTree) :
    ∃ schedule, lockfileBy path out policy (fun _ => fetcher) schedule tree =
      some (lockfile path out policy fetcher tree) := by
  rw [lockfile_eq]
  unfold lockfileBy
  cases Lockfile.read tree (Path.ofString path) with
  | error failure => exact ⟨[], rfl⟩
  | ok found =>
      obtain ⟨document, lock⟩ := found
      dsimp only
      cases lock.normalize with
      | error failure => exact ⟨[], rfl⟩
      | ok map =>
          dsimp only
          cases hplan : (Plan.make policy map).result with
          | ok plan =>
              exact ⟨_, by rw [packages_inTurn hplan, Option.map_some]⟩
          | error failure =>
              refine ⟨[], ?_⟩
              rw [packages_eq, packagesBy]
              rcases hmake : Plan.make policy map with ⟨result, warnings⟩
              rw [hmake] at hplan
              dsimp only at hplan
              subst hplan
              rfl

end LockPrefetch.Run
