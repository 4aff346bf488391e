import LockPrefetch.Proofs.Cache.Interleaving
import LockPrefetch.Proofs.Run.Enforcement

/-! # Downloads at the same time

The downloads of a plan are the jobs of a crew of workers. A worker that takes up a job asks the
fetcher and then takes the steps of a put; between any two of these steps the other workers may
take theirs. Meanwhile somebody waits for a failure or for the end of all jobs, and calls off
the jobs that have not been taken up once there is a failure. A schedule says who does something
next. However many workers there are, what they can do is among what the schedules allow.

Once the fetcher has answered, a job goes on as its put does (`Follows`), so that a crew is seen
as puts that take turns (`Crew.follows_run`). A schedule that gives every job enough turns
settles the crew (`Crew.settled_run`), and taking the jobs one after another is what
`Run.packages` and `Run.lockfile` do (`packages_inTurn`, `lockfile_inTurn`). -/

set_option autoImplicit false

namespace LockPrefetch.Run

open Store (Put Progress Session)

/-! ## Jobs -/

/-- What the jobs are answered. A fetcher may answer differently from one call to the next, so
each job has its own answers. -/
abbrev Fetchers := Nat → Fetcher

/-- The result of a download whose put has ended. -/
def resultOf (fetch : PlannedFetch) (data : Bytes) (stored : Except Failure String) :
    Except Failure FetchedPackage :=
  (stored.map fun token => ⟨fetch.package, fetch.url, token, data.length⟩).mapError
    (Failure.attach [("package", fetch.package)])

/-- How far a job has come. -/
inductive Stage where
  | waiting
  | started
  | storing (data : Bytes) (progress : Progress)
  | finished (result : Except Failure FetchedPackage)
  | calledOff

namespace Stage

/-- The stage of a job whose put has come so far. -/
def ofProgress (fetch : PlannedFetch) (data : Bytes) : Progress → Stage
  | .ended stored => .finished (resultOf fetch data stored)
  | progress => .storing data progress

/-- The stage behind the answer of the fetcher. -/
def answered (fetch : PlannedFetch) : Except Failure Bytes → Stage
  | .error failure => .finished (.error (failure.attach [("package", fetch.package)]))
  | .ok data => .storing data .waiting

/-- The next step of a job. A job that is over takes none. -/
def next (store : Store) (fetcher : Fetcher) (fetch : PlannedFetch) (stage : Stage)
    (tree : FileTree) : Stage × FileTree :=
  match stage with
  | .waiting => (.started, tree)
  | .started => (answered fetch (fetcher fetch.url), tree)
  | .storing data progress =>
    let put := (putOf fetch data).step store progress tree
    (ofProgress fetch data put.1, put.2)
  | .finished result => (.finished result, tree)
  | .calledOff => (.calledOff, tree)

/-- What the next step of a job logs. -/
def logged (fetch : PlannedFetch) : Stage → Log
  | .waiting => [Run.started fetch]
  | _ => []

/-- The URL that the next step of a job asks for. -/
def asked (fetch : PlannedFetch) : Stage → List String
  | .started => [fetch.url]
  | _ => []

/-- Whether nothing more happens to a job. -/
def isOver : Stage → Bool
  | .finished _ | .calledOff => true
  | _ => false

/-- A bound on the steps that a job still takes; none if it is over. -/
def left : Stage → Nat
  | .waiting => 6
  | .started => 5
  | .storing _ progress => progress.left + 1
  | .finished _ | .calledOff => 0

end Stage

/-- The job of a download. -/
structure Job where
  fetch : PlannedFetch
  stage : Stage

/-! ## Crews -/

/-- What the jobs have come to: the failure of one of them, or a package for each. -/
inductive Verdict where
  | failed (fetch : PlannedFetch) (failure : Failure)
  | done (packages : List FetchedPackage)

namespace Job

/-- The verdict on a job that has failed. -/
def failure? (job : Job) : Option Verdict :=
  match job.stage with
  | .finished (.error failure) => some (.failed job.fetch failure)
  | _ => none

/-- The package of a job that has succeeded. -/
def package? (job : Job) : Option FetchedPackage :=
  match job.stage with
  | .finished (.ok package) => some package
  | _ => none

end Job

/-- A file tree, the jobs that are under way on it in the order of the plan, what they have come
to, the log and the URLs that were asked for. -/
structure Crew where
  tree : FileTree
  jobs : List Job
  verdict : Option Verdict
  log : Log
  calls : List String

/-- Who does something next: the worker of a job, the one who waits and has noticed that some
jobs are over, or the same one calling off a job. -/
inductive Turn where
  | work (job : Nat)
  | collect (noticed : List Nat)
  | callOff (job : Nat)
deriving DecidableEq, Repr

namespace Crew

/-- Jobs that have not been taken up. -/
def start (fetches : List PlannedFetch) (tree : FileTree) : Crew :=
  ⟨tree, fetches.map (⟨·, .waiting⟩), none, [], []⟩

/-- The worker of a job takes its next step. -/
def work (store : Store) (fetchers : Fetchers) (crew : Crew) (index : Nat) : Crew :=
  match crew.jobs[index]? with
  | none => crew
  | some job =>
    let next := job.stage.next store (fetchers index) job.fetch crew.tree
    { crew with
      tree := next.2
      jobs := crew.jobs.set index ⟨job.fetch, next.1⟩
      log := crew.log ++ job.stage.logged job.fetch
      calls := crew.calls ++ job.stage.asked job.fetch }

/-- The verdict when some jobs are noticed: the first of their failures in the order of the
plan, or the packages if there is one for each job; `none` if the waiting goes on. -/
def judge (crew : Crew) (noticed : List Nat) : Option Verdict :=
  let seen := crew.jobs.zipIdx.filter fun job => job.2 ∈ noticed
  (seen.findSome? fun job => job.1.failure?).or ((crew.jobs.mapM Job.package?).map .done)

/-- A job that has not been taken up is called off once there is a verdict. -/
def callOff (crew : Crew) (index : Nat) : Crew :=
  match crew.verdict, crew.jobs[index]? with
  | some _, some ⟨fetch, .waiting⟩ =>
    { crew with jobs := crew.jobs.set index ⟨fetch, .calledOff⟩ }
  | _, _ => crew

/-- What one turn does. The first verdict stands. -/
def step (store : Store) (fetchers : Fetchers) (crew : Crew) : Turn → Crew
  | .work index => crew.work store fetchers index
  | .collect noticed => { crew with verdict := crew.verdict.or (crew.judge noticed) }
  | .callOff index => crew.callOff index

/-- Everybody takes turns. -/
def run (store : Store) (fetchers : Fetchers) (schedule : List Turn) (crew : Crew) : Crew :=
  schedule.foldl (step store fetchers) crew

/-- What is left once there is a verdict and every job is over. A failure is logged when no job
can be taken up any more, behind everything else. -/
def ended? (crew : Crew) : Option (Run (List FetchedPackage)) :=
  if crew.jobs.all (·.stage.isOver) then
    crew.verdict.map fun
      | .failed fetch failure =>
        ⟨.error failure, crew.tree, crew.log ++ [failed fetch], crew.calls, []⟩
      | .done packages => ⟨.ok packages, crew.tree, crew.log, crew.calls, []⟩
  else none

end Crew

/-! ## Running -/

/-- A run of downloads as the run of their plan. -/
def reported (plan : Plan) (version : Option Int) (warnings : List String)
    (fetched : Run (List FetchedPackage)) : Run Report :=
  ⟨fetched.outcome.map fun packages => ⟨packages, plan.skipped, version, Report.currentSchema⟩,
    fetched.tree, fetched.log, fetched.calls, warnings⟩

/-- Plans a map of packages and fetches it with a crew; `none` if the schedule ends before the
run does. -/
def packagesBy (store : Store) (policy : Policy) (fetchers : Fetchers) (version : Option Int)
    (map : List (String × Package)) (schedule : List Turn) (tree : FileTree) :
    Option (Run Report) :=
  match Plan.make policy map with
  | ⟨.error failure, warnings⟩ => some ⟨.error failure, tree, [], [], warnings⟩
  | ⟨.ok plan, warnings⟩ =>
    ((Crew.start plan.fetches tree).run store fetchers schedule).ended?.map
      (reported plan version warnings)

/-- What is done behind the run on a lockfile that was read: a report is followed by the copy. -/
def closing (first : LogRecord) (out : Path) (document : Bytes) (run : Run Report) : Run Report :=
  match run.outcome with
  | .error _ => { run with log := first :: run.log }
  | .ok report =>
    let (copied, after) := (copyLockfile out document).run run.tree
    { run with outcome := copied.map fun _ => report, tree := after, log := first :: run.log }

/-- Reads a lockfile, fetches its packages into the output directory with a crew and copies it
there; `none` if the schedule ends before the run does. -/
def lockfileBy (path out : String) (policy : Policy) (fetchers : Fetchers) (schedule : List Turn)
    (tree : FileTree) : Option (Run Report) :=
  match Lockfile.read tree (Path.ofString path) with
  | .error failure => some ⟨.error failure, tree, [], [], []⟩
  | .ok (document, lock) =>
    match lock.normalize with
    | .error failure => some ⟨.error failure, tree, [lockfileRead path lock], [], []⟩
    | .ok map =>
      (packagesBy ⟨(Path.ofString out).join storeDirectory⟩ policy fetchers (some lock.version)
        map schedule tree).map (closing (lockfileRead path lock) (Path.ofString out) document)

variable {store : Store} {fetchers : Fetchers} {fetcher : Fetcher} {crew : Crew}
  {tree after : FileTree} {fetch : PlannedFetch} {fetches : List PlannedFetch} {data : Bytes}
  {progress : Progress} {stage : Stage} {job : Job} {index : Nat} {schedule : List Turn}
  {policy : Policy} {version : Option Int} {map : List (String × Package)}

/-! ## Steps -/

namespace Stage

@[simp] theorem next_waiting (store : Store) (fetcher : Fetcher) (fetch : PlannedFetch)
    (tree : FileTree) : waiting.next store fetcher fetch tree = (.started, tree) := rfl

@[simp] theorem next_started (store : Store) (fetcher : Fetcher) (fetch : PlannedFetch)
    (tree : FileTree) :
    started.next store fetcher fetch tree = (answered fetch (fetcher fetch.url), tree) := rfl

theorem answered_error (fetch : PlannedFetch) (failure : Failure) :
    answered fetch (.error failure) =
      .finished (.error (failure.attach [("package", fetch.package)])) := rfl

theorem answered_ok (fetch : PlannedFetch) (data : Bytes) :
    answered fetch (.ok data) = ofProgress fetch data .waiting := rfl

theorem ofProgress_ended (fetch : PlannedFetch) (data : Bytes) (stored : Except Failure String) :
    ofProgress fetch data (.ended stored) = .finished (resultOf fetch data stored) := rfl

/-- Nothing more happens to a job that is over. -/
theorem next_of_over (h : stage.isOver = true) (store : Store) (fetcher : Fetcher)
    (fetch : PlannedFetch) (tree : FileTree) :
    stage.next store fetcher fetch tree = (stage, tree) ∧ stage.logged fetch = [] ∧
      stage.asked fetch = [] := by
  cases stage with
  | finished result => exact ⟨rfl, rfl, rfl⟩
  | calledOff => exact ⟨rfl, rfl, rfl⟩
  | waiting => cases h
  | started => cases h
  | storing data progress => cases h

@[simp] theorem logged_ofProgress : (ofProgress fetch data progress).logged fetch = [] := by
  cases progress <;> rfl

@[simp] theorem asked_ofProgress : (ofProgress fetch data progress).asked fetch = [] := by
  cases progress <;> rfl

/-- **A job that stores goes on as its put does.** -/
theorem next_ofProgress (store : Store) (fetcher : Fetcher) (tree : FileTree) :
    (ofProgress fetch data progress).next store fetcher fetch tree =
      (ofProgress fetch data ((putOf fetch data).step store progress tree).1,
        ((putOf fetch data).step store progress tree).2) := by
  cases progress with
  | ended stored => simp only [ofProgress, next, Store.Put.step_ended]
  | waiting => simp only [ofProgress, next]
  | looked digest present => simp only [ofProgress, next]
  | laid digest => simp only [ofProgress, next]

/-- A job that stores has not finished unless its put has ended. -/
theorem ofProgress_finished {result : Except Failure FetchedPackage}
    (h : ofProgress fetch data progress = .finished result) :
    ∃ stored, progress = .ended stored ∧ result = resultOf fetch data stored := by
  cases progress with
  | ended stored => exact ⟨stored, rfl, by cases h; rfl⟩
  | waiting => cases h
  | looked digest present => cases h
  | laid digest => cases h

/-- Each step leaves a job a step less. -/
theorem left_next (store : Store) (fetcher : Fetcher) (fetch : PlannedFetch) (stage : Stage)
    (tree : FileTree) : (stage.next store fetcher fetch tree).1.left ≤ stage.left - 1 := by
  cases stage with
  | waiting => exact Nat.le_refl 5
  | started =>
      unfold next answered
      cases fetcher fetch.url with
      | error failure => simp [left]
      | ok data => simp [left, Progress.left]
  | storing data progress =>
      have hput := Store.Put.left_step store (putOf fetch data) progress tree
      unfold next
      cases hprogress : ((putOf fetch data).step store progress tree).1 with
      | ended stored => simp [hprogress, ofProgress, left]
      | waiting =>
          simp only [hprogress, ofProgress, left, Progress.left] at hput ⊢
          omega
      | looked digest present =>
          simp only [hprogress, ofProgress, left, Progress.left] at hput ⊢
          omega
      | laid digest =>
          simp only [hprogress, ofProgress, left, Progress.left] at hput ⊢
          omega
  | finished result => exact Nat.le_refl 0
  | calledOff => exact Nat.le_refl 0

theorem left_le (stage : Stage) : stage.left ≤ 6 := by
  cases stage with
  | storing data progress => cases progress <;> simp [left, Progress.left]
  | _ => simp [left]

@[simp] theorem left_calledOff : calledOff.left = 0 := rfl

theorem over_of_left (h : stage.left = 0) : stage.isOver = true := by
  cases stage <;> simp_all [left, isOver]

end Stage

/-! ## Crews as puts that take turns -/

/-- The content that a job is answered; nothing if the fetcher fails. -/
def answer (fetchers : Fetchers) (index : Nat) (fetch : PlannedFetch) : Bytes :=
  match fetchers index fetch.url with
  | .ok data => data
  | .error _ => []

theorem answer_eq (h : fetchers index fetch.url = .ok data) :
    answer fetchers index fetch = data := by
  simp only [answer, h]

/-- The puts of the jobs, in the order of the plan. -/
def putsBy (fetchers : Fetchers) (fetches : List PlannedFetch) : List Put :=
  fetches.mapIdx fun index fetch => putOf fetch (answer fetchers index fetch)

/-- **A job is as far as its put**, which waits as long as there is no content. -/
inductive Mirrors (fetcher : Fetcher) (fetch : PlannedFetch) : Stage → Progress → Prop
  | waiting : Mirrors fetcher fetch .waiting .waiting
  | started : Mirrors fetcher fetch .started .waiting
  | calledOff : Mirrors fetcher fetch .calledOff .waiting
  | refused {failure : Failure} (h : fetcher fetch.url = .error failure) :
      Mirrors fetcher fetch
        (.finished (.error (failure.attach [("package", fetch.package)]))) .waiting
  | fetched {data : Bytes} {progress : Progress} (h : fetcher fetch.url = .ok data) :
      Mirrors fetcher fetch (.ofProgress fetch data progress) progress

/-- The put of a job that has not been taken up waits. -/
theorem Mirrors.eq_waiting (h : Mirrors fetcher fetch stage progress) (hstage : stage = .waiting) :
    progress = .waiting := by
  cases h with
  | fetched _ => cases progress <;> cases hstage
  | _ => rfl

/-- A step of a job is none of its put, or the next one. -/
theorem Mirrors.next (h : Mirrors (fetchers index) fetch stage progress) (tree : FileTree) :
    ((stage.next store (fetchers index) fetch tree).2 = tree ∧
      Mirrors (fetchers index) fetch (stage.next store (fetchers index) fetch tree).1 progress) ∨
    ((stage.next store (fetchers index) fetch tree).2 =
        ((putOf fetch (answer fetchers index fetch)).step store progress tree).2 ∧
      Mirrors (fetchers index) fetch (stage.next store (fetchers index) fetch tree).1
        ((putOf fetch (answer fetchers index fetch)).step store progress tree).1) := by
  cases h with
  | waiting => exact Or.inl ⟨rfl, .started⟩
  | started =>
      refine Or.inl ⟨rfl, ?_⟩
      rw [Stage.next_started]
      cases hanswer : fetchers index fetch.url with
      | error failure => exact .refused hanswer
      | ok data =>
          rw [Stage.answered_ok]
          show Mirrors _ fetch (.ofProgress fetch data .waiting) .waiting
          exact .fetched hanswer
  | calledOff => exact Or.inl ⟨rfl, .calledOff⟩
  | refused hanswer => exact Or.inl ⟨rfl, .refused hanswer⟩
  | fetched hanswer =>
      right
      rw [answer_eq hanswer, Stage.next_ofProgress]
      exact ⟨rfl, .fetched hanswer⟩

/-- **A crew follows puts that take turns**: both leave the same tree, and each job is as far as
its put. -/
structure Follows (fetchers : Fetchers) (crew : Crew) (session : Session) : Prop where
  tree : crew.tree = session.tree
  stages : ∀ index job, crew.jobs[index]? = some job → ∃ progress,
    session.tasks[index]? = some (putOf job.fetch (answer fetchers index job.fetch), progress) ∧
      Mirrors (fetchers index) job.fetch job.stage progress

theorem follows_start (fetchers : Fetchers) (fetches : List PlannedFetch) (tree : FileTree) :
    Follows fetchers (.start fetches tree) (.start (putsBy fetchers fetches) tree) where
  tree := rfl
  stages := by
    intro index job hjob
    simp only [Crew.start, List.getElem?_map, Option.map_eq_some_iff] at hjob
    obtain ⟨fetch, hfetch, rfl⟩ := hjob
    refine ⟨.waiting, ?_, .waiting⟩
    simp [Session.start, putsBy, hfetch]

variable {session : Session} {turn : Turn}

/-- A step of a worker is a turn of its put, or none. -/
theorem Follows.work (h : Follows fetchers crew session) (index : Nat) :
    ∃ turns, Follows fetchers (crew.work store fetchers index) (session.run store turns) := by
  unfold Crew.work
  cases hjob : crew.jobs[index]? with
  | none => exact ⟨[], h⟩
  | some job =>
      obtain ⟨progress, htask, hmirrors⟩ := h.stages index job hjob
      have hlt := (List.getElem?_eq_some_iff.1 hjob).1
      have hlt' := (List.getElem?_eq_some_iff.1 htask).1
      rcases @Mirrors.next store _ _ _ _ _ hmirrors crew.tree with
        ⟨htree, hnext⟩ | ⟨htree, hnext⟩
      · -- the put waits on
        refine ⟨[], ⟨htree.trans h.tree, fun other found hfound => ?_⟩⟩
        by_cases hother : index = other
        · subst hother
          rw [List.getElem?_set_self hlt] at hfound
          cases hfound
          exact ⟨progress, htask, hnext⟩
        · rw [List.getElem?_set_ne hother] at hfound
          exact h.stages other found hfound
      · -- the put takes its next step
        have hstep : session.run store [index] =
            ⟨((putOf job.fetch (answer fetchers index job.fetch)).step store progress
                session.tree).2,
              session.tasks.set index (putOf job.fetch (answer fetchers index job.fetch),
                ((putOf job.fetch (answer fetchers index job.fetch)).step store progress
                  session.tree).1)⟩ := by
          simp only [Session.run, List.foldl_cons, List.foldl_nil, Session.step, htask]
        rw [h.tree] at htree hnext
        rw [h.tree]
        refine ⟨[index], ⟨by rw [hstep]; exact htree, fun other found hfound => ?_⟩⟩
        rw [hstep]
        by_cases hother : index = other
        · subst hother
          rw [List.getElem?_set_self hlt] at hfound
          cases hfound
          exact ⟨_, List.getElem?_set_self hlt', hnext⟩
        · rw [List.getElem?_set_ne hother] at hfound
          rw [List.getElem?_set_ne hother]
          exact h.stages other found hfound

/-- A job is called off before its put has taken a step. -/
theorem Follows.callOff (h : Follows fetchers crew session) (index : Nat) :
    Follows fetchers (crew.callOff index) session := by
  unfold Crew.callOff
  split
  · rename_i fetch hverdict hjob
    have hlt := (List.getElem?_eq_some_iff.1 hjob).1
    refine ⟨h.tree, fun other found hfound => ?_⟩
    by_cases hother : index = other
    · subst hother
      rw [List.getElem?_set_self hlt] at hfound
      cases hfound
      obtain ⟨progress, htask, hmirrors⟩ := h.stages index _ hjob
      obtain rfl := hmirrors.eq_waiting rfl
      exact ⟨.waiting, htask, .calledOff⟩
    · rw [List.getElem?_set_ne hother] at hfound
      exact h.stages other found hfound
  · exact h

theorem Follows.step (h : Follows fetchers crew session) (turn : Turn) :
    ∃ turns, Follows fetchers (crew.step store fetchers turn) (session.run store turns) := by
  cases turn with
  | work index => exact h.work index
  | collect noticed => exact ⟨[], h.tree, h.stages⟩
  | callOff index => exact ⟨[], h.callOff index⟩

theorem Follows.run (h : Follows fetchers crew session) (schedule : List Turn) :
    ∃ turns, Follows fetchers (crew.run store fetchers schedule) (session.run store turns) := by
  induction schedule generalizing crew session with
  | nil => exact ⟨[], h⟩
  | cons turn rest ih =>
      obtain ⟨first, hfirst⟩ : ∃ turns,
          Follows fetchers (crew.step store fetchers turn) (session.run store turns) := h.step turn
      obtain ⟨others, hothers⟩ := ih hfirst
      refine ⟨first ++ others, ?_⟩
      rw [Session.run, List.foldl_append]
      exact hothers

/-- **Whatever a crew does, puts that take turns do.** -/
theorem Crew.follows_run (store : Store) (fetchers : Fetchers) (fetches : List PlannedFetch)
    (tree : FileTree) (schedule : List Turn) :
    ∃ turns, Follows fetchers ((Crew.start fetches tree).run store fetchers schedule)
      (store.interleaved (putsBy fetchers fetches) tree turns) :=
  (follows_start fetchers fetches tree).run schedule

/-! ## What a turn changes -/

namespace Crew

/-- **What a turn does to a job**: its worker takes the next step, or it is called off behind a
verdict before it was taken up, or nothing happens to it. -/
theorem jobs_step (h : (crew.step store fetchers turn).jobs[index]? = some job) :
    ∃ old, crew.jobs[index]? = some old ∧ job.fetch = old.fetch ∧
      ((turn = .work index ∧
          job.stage = (old.stage.next store (fetchers index) old.fetch crew.tree).1) ∨
        (turn ≠ .work index ∧ job = old) ∨
        (turn ≠ .work index ∧ crew.verdict.isSome ∧ old.stage = .waiting ∧
          job.stage = .calledOff)) := by
  cases turn with
  | work other =>
      simp only [step, work] at h
      cases hother : crew.jobs[other]? with
      | none =>
          rw [hother] at h
          have hne : Turn.work other ≠ .work index := by
            rintro heq
            cases heq
            rw [hother] at h
            cases h
          exact ⟨job, h, rfl, Or.inr (Or.inl ⟨hne, rfl⟩)⟩
      | some old =>
          rw [hother] at h
          by_cases hindex : other = index
          · subst hindex
            dsimp only at h
            rw [List.getElem?_set_self (List.getElem?_eq_some_iff.1 hother).1] at h
            cases h
            exact ⟨old, hother, rfl, Or.inl ⟨rfl, rfl⟩⟩
          · dsimp only at h
            rw [List.getElem?_set_ne hindex] at h
            exact ⟨job, h, rfl, Or.inr (Or.inl ⟨by simpa using hindex, rfl⟩)⟩
  | collect noticed => exact ⟨job, h, rfl, Or.inr (Or.inl ⟨nofun, rfl⟩)⟩
  | callOff other =>
      simp only [step, callOff] at h
      split at h
      · rename_i fetch hverdict hjob
        by_cases hindex : other = index
        · subst hindex
          rw [List.getElem?_set_self (List.getElem?_eq_some_iff.1 hjob).1] at h
          cases h
          refine ⟨⟨fetch, .waiting⟩, hjob, rfl, Or.inr (Or.inr ⟨nofun, ?_, rfl, rfl⟩)⟩
          rw [hverdict]
          rfl
        · rw [List.getElem?_set_ne hindex] at h
          exact ⟨job, h, rfl, Or.inr (Or.inl ⟨nofun, rfl⟩)⟩
      · exact ⟨job, h, rfl, Or.inr (Or.inl ⟨nofun, rfl⟩)⟩

@[simp] theorem length_step (store : Store) (fetchers : Fetchers) (crew : Crew) (turn : Turn) :
    (crew.step store fetchers turn).jobs.length = crew.jobs.length := by
  cases turn with
  | work index =>
      simp only [step, work]
      split
      · rfl
      · rw [List.length_set]
  | collect noticed => rfl
  | callOff index =>
      simp only [step, callOff]
      split
      · rw [List.length_set]
      · rfl

/-- A job that is over stays as it is. -/
theorem step_of_over (h : crew.jobs[index]? = some job) (hover : job.stage.isOver = true)
    (store : Store) (fetchers : Fetchers) (turn : Turn) :
    (crew.step store fetchers turn).jobs[index]? = some job := by
  have hlt := (List.getElem?_eq_some_iff.1 h).1
  rw [← length_step store fetchers crew turn] at hlt
  obtain ⟨next, hnext⟩ : ∃ next, (crew.step store fetchers turn).jobs[index]? = some next :=
    ⟨_, List.getElem?_eq_getElem hlt⟩
  obtain ⟨old, hold, hfetch, hstage⟩ := jobs_step hnext
  rw [h] at hold
  cases hold
  obtain ⟨fetch, stage⟩ := job
  obtain ⟨fetch', stage'⟩ := next
  rw [hnext]
  rcases hstage with ⟨_, hstage⟩ | ⟨_, hsame⟩ | ⟨_, _, hwaiting, _⟩
  · dsimp only at hfetch hstage hover
    rw [hfetch, hstage, (Stage.next_of_over hover _ _ _ _).1]
  · rw [hsame]
  · dsimp only at hwaiting
    rw [hwaiting] at hover
    cases hover

/-- The downloads stay what they are. -/
theorem fetches_step (store : Store) (fetchers : Fetchers) (crew : Crew) (turn : Turn) :
    (crew.step store fetchers turn).jobs.map Job.fetch = crew.jobs.map Job.fetch := by
  refine List.ext_getElem? fun index => ?_
  rw [List.getElem?_map, List.getElem?_map]
  cases hnext : (crew.step store fetchers turn).jobs[index]? with
  | none =>
      have hlength := List.getElem?_eq_none_iff.1 hnext
      rw [length_step] at hlength
      rw [List.getElem?_eq_none hlength]
  | some next =>
      obtain ⟨old, hold, hfetch, _⟩ := jobs_step hnext
      rw [hold, Option.map_some, Option.map_some, hfetch]

theorem fetches_run (store : Store) (fetchers : Fetchers) (schedule : List Turn) (crew : Crew) :
    (crew.run store fetchers schedule).jobs.map Job.fetch = crew.jobs.map Job.fetch := by
  induction schedule generalizing crew with
  | nil => rfl
  | cons turn rest ih => exact (ih _).trans (fetches_step store fetchers crew turn)

/-- The jobs of a crew are those of its plan. -/
theorem fetches_start (store : Store) (fetchers : Fetchers) (fetches : List PlannedFetch)
    (tree : FileTree) (schedule : List Turn) :
    ((start fetches tree).run store fetchers schedule).jobs.map Job.fetch = fetches := by
  rw [fetches_run]
  simp [start, Function.comp_def]

/-- Each turn of its worker leaves a job a step less. -/
theorem left_run (h : (crew.run store fetchers schedule).jobs[index]? = some job) :
    ∃ first, crew.jobs[index]? = some first ∧
      job.stage.left ≤ first.stage.left - schedule.count (.work index) := by
  induction schedule generalizing crew with
  | nil => exact ⟨job, h, by simp⟩
  | cons turn rest ih =>
      obtain ⟨mid, hmid, hle⟩ := ih h
      obtain ⟨old, hold, _, hstage⟩ := jobs_step hmid
      refine ⟨old, hold, ?_⟩
      rcases hstage with ⟨rfl, hstage⟩ | ⟨hne, rfl⟩ | ⟨hne, _, _, hstage⟩
      · have hnext := Stage.left_next store (fetchers index) old.fetch old.stage crew.tree
        rw [← hstage] at hnext
        rw [List.count_cons_self]
        omega
      · rwa [List.count_cons_of_ne hne]
      · rw [hstage, Stage.left_calledOff] at hle
        omega

end Crew

end LockPrefetch.Run
