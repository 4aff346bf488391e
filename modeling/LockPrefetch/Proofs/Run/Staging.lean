import LockPrefetch.Proofs.Run.Confinement

/-! # Running in stages

A run on a lockfile decides everything that the lockfile decides before it asks for anything
(`prepare`), it copies the lockfile only behind the last download, and the copy is what was read,
octet by octet (`Staged`). A new output directory that holds a copy therefore holds
everything that was planned.

The copy is left alone until then because it lies beside the store: the steps of a put stay
within the store (`Store.within_step`), wherever the output directory settles. -/

set_option autoImplicit false

namespace LockPrefetch

open FileTree (Within)

namespace Store

open Cache (contentNames bucketNames)

variable {store : Store} {tree after : FileTree} {base : Location} {digest : Digest}
  {put : Put} {progress : Progress} {session : Session}

/-! ## Puts stay within their store -/

theorem within_placeContent (h : tree.Leads store.root base) (hd : digest.Supported)
    (data : Bytes) : Within base tree ((store.placeContent digest data).run tree).2 := by
  rcases run_placeContent h hd data with ⟨failure, after, hrun, hpaved⟩ | ⟨after, hrun, hfiled, _⟩
  · rw [hrun]
    exact (hpaved.mono (List.dropLast_prefix _)).within
  · rw [hrun]
    exact hfiled.within

theorem within_appendRecord (h : tree.Leads store.root base) (key url : String)
    (digest : Digest) (size : Nat) :
    Within base tree ((store.appendRecord key url digest size).run tree).2 := by
  rcases run_appendRecord h key url digest size with
    ⟨failure, after, hrun, hpaved⟩ | ⟨after, hrun, hfiled, _⟩
  · rw [hrun]
    exact (hpaved.mono (List.dropLast_prefix _)).within
  · rw [hrun]
    exact hfiled.within

/-- **A step of a put stays within its store.** -/
theorem within_step (h : tree.Leads store.root base) (haccounts : Accounts put progress) :
    Within base tree (put.step store progress tree).2 := by
  rcases put.tree_step store progress tree with
    hsame | ⟨digest, rfl, hplaced⟩ | ⟨digest, rfl, hadded⟩
  · rw [hsame]
    exact Within.refl base tree
  · rw [hplaced]
    exact within_placeContent h (verify_eq_ok_iff.1 haccounts).1.supported put.data
  · rw [hadded]
    exact within_appendRecord h put.key put.url digest put.data.length

end Store

namespace Run

open Store (Put Progress Session)

variable {path out : String} {policy : Policy} {fetchers : Fetchers} {schedule : List Turn}
  {tree after : FileTree} {base : Location} {run : Run Report} {document : Bytes}
  {failure : Failure}

/-- **A crew stays within its store**, at any time. -/
theorem within_crew {store : Store} (h : tree.Leads store.root base) (fetchers : Fetchers)
    (fetches : List PlannedFetch) (schedule : List Turn) :
    Within base tree ((Crew.start fetches tree).run store fetchers schedule).tree := by
  -- a step leaves the root leading to where it led
  have hrun := @related_crew store
    (fun tree after => tree.Leads store.root base → Within base tree after)
    (fun tree _ => Within.refl base tree)
    (fun hfirst hsecond hleads =>
      (hfirst hleads).trans (hsecond (hleads.mono (hfirst hleads).grows)))
    (fun _ _ _ haccounts hleads => Store.within_step hleads haccounts)
    fetchers fetches schedule tree
  exact hrun h

/-! ## Preparing -/

/-- What is known of a lockfile before anything is asked for. -/
structure Prepared where
  document : Bytes
  version : Int
  map : List (String × Package)
  plan : Plan

/-- Reads a lockfile, normalizes it and plans its packages. -/
def prepare (path : String) (policy : Policy) (tree : FileTree) : Except Failure Prepared := do
  let (document, lock) ← Lockfile.read tree (Path.ofString path)
  let map ← lock.normalize
  let plan ← (Plan.make policy map).result
  return ⟨document, lock.version, map, plan⟩

/-- The store in an output directory. -/
def storeIn (out : String) : Store := ⟨(Path.ofString out).join storeDirectory⟩

/-- The copy of the lockfile in an output directory. -/
def copyIn (out : String) : Path := (Path.ofString out).join lockfileName

theorem readFile_of_read {place : Path} {lock : Lockfile}
    (h : Lockfile.read tree place = .ok (document, lock)) :
    tree.readFile place = .ok document := by
  unfold Lockfile.read at h
  cases hread : tree.readFile place with
  | error fault =>
      simp only [hread] at h
      split at h <;> cases h
  | ok found =>
      simp only [hread] at h
      cases hparse : Lockfile.parseBytes found with
      | error failure => simp [hparse, bind, Except.bind] at h
      | ok lock =>
          simp only [hparse, bind, Except.bind, pure, Except.pure, Except.ok.injEq,
            Prod.mk.injEq] at h
          rw [h.1]

/-- **A run on a lockfile prepares first**: it fails with what preparing fails with and leaves
the tree alone, or fetches what is planned and closes with the document that was read. -/
theorem lockfileBy_eq (path out : String) (policy : Policy) (fetchers : Fetchers)
    (schedule : List Turn) (tree : FileTree) :
    (∃ failure log warnings, prepare path policy tree = .error failure ∧
      lockfileBy path out policy fetchers schedule tree =
        some ⟨.error failure, tree, log, [], warnings⟩) ∨
    ∃ prepared first, prepare path policy tree = .ok prepared ∧
      tree.readFile (Path.ofString path) = .ok prepared.document ∧
      (Plan.make policy prepared.map).result = .ok prepared.plan ∧
      lockfileBy path out policy fetchers schedule tree =
        (packagesBy (storeIn out) policy fetchers (some prepared.version) prepared.map schedule
          tree).map (closing first (Path.ofString out) prepared.document) := by
  unfold prepare lockfileBy
  cases hread : Lockfile.read tree (Path.ofString path) with
  | error failure => exact Or.inl ⟨failure, [], [], rfl, rfl⟩
  | ok found =>
      obtain ⟨document, lock⟩ := found
      have hdocument := readFile_of_read hread
      simp only [bind, Except.bind]
      cases hnormal : lock.normalize with
      | error failure => exact Or.inl ⟨failure, [lockfileRead path lock], [], rfl, rfl⟩
      | ok map =>
          simp only
          cases hplan : (Plan.make policy map).result with
          | error failure =>
              left
              refine ⟨failure, [lockfileRead path lock], (Plan.make policy map).warnings, rfl, ?_⟩
              exact congrArg (Option.map _) (packagesBy_error hplan _ _ _ _ _)
          | ok plan =>
              exact Or.inr ⟨⟨document, lock.version, map, plan⟩, lockfileRead path lock, rfl,
                hdocument, hplan, rfl⟩

/-! ## Copying -/

theorem readFile_copyLockfile (h : (copyLockfile (Path.ofString out) document).run tree =
    (.ok (), after)) : after.readFile (copyIn out) = .ok document := by
  rw [copyLockfile_eq, FileTree.Action.run_restating] at h
  rw [copyIn, join_lockfileName]
  rcases hrun : (FileTree.changeBelow ⟨(Path.ofString out).anchor,
    (Path.ofString out).names ++ [lockfileName]⟩ fun _ => document).run tree with ⟨result, last⟩
  rw [hrun] at h
  cases result with
  | error fault => cases h
  | ok _ =>
      obtain ⟨_, rfl⟩ := Prod.mk.inj h
      exact FileTree.readFile_changeBelow hrun

/-- **Copying** leaves the copy in the output directory, or is refused and leaves directories. -/
theorem run_copyLockfile {out : Path} (h : tree.Leads out base) (document : Bytes) :
    (∃ failure after, (copyLockfile out document).run tree = (.error failure, after) ∧
      tree.Paved after base) ∨
    ∃ after, (copyLockfile out document).run tree = (.ok (), after) ∧
      tree.Filed after (base ++ [lockfileName]) document := by
  rw [copyLockfile_eq]
  rcases FileTree.run_changeBelow h (by decide) (List.cons_ne_nil lockfileName [])
      (fun _ => document) with ⟨fault, after, hrun, hpaved⟩ | ⟨after, hrun, hfiled, _⟩
  · rw [List.dropLast_concat] at hpaved
    exact Or.inl ⟨_, after, Store.run_restating_error hrun, hpaved⟩
  · exact Or.inr ⟨after, Store.run_restating_ok hrun, hfiled⟩

theorem leads_copyIn (h : tree.Leads (Path.ofString out) base) :
    tree.Leads (copyIn out) (base ++ [lockfileName]) := by
  rw [copyIn, join_lockfileName]
  exact h.join (by decide)

theorem leads_storeIn (h : tree.Leads (Path.ofString out) base) :
    tree.Leads (storeIn out).root (base ++ [storeDirectory]) := by
  show tree.Leads ((Path.ofString out).join storeDirectory) _
  rw [join_storeDirectory]
  exact h.join (by decide)

/-- The copy lies beside the store. -/
theorem get?_copy_of_within (h : Within (base ++ [storeDirectory]) tree after) :
    after.get? (base ++ [lockfileName]) = tree.get? (base ++ [lockfileName]) := by
  have hne : storeDirectory ≠ lockfileName := by decide
  refine h.beside (fun hout => ?_) fun hway => ?_
  · have hsame := List.append_cancel_left (hout.eq_of_length (by simp))
    exact hne (List.cons.inj hsame).1
  · have hsame := List.append_cancel_left (hway.eq_of_length (by simp))
    exact hne (List.cons.inj hsame).1.symm

/-- The store lies beside the copy. -/
theorem get?_store_of_copied (h : tree.Filed after (base ++ [lockfileName]) document)
    (names : List String) : after.get? (base ++ [storeDirectory] ++ names) =
      tree.get? (base ++ [storeDirectory] ++ names) := by
  have hne : storeDirectory ≠ lockfileName := by decide
  have hplace : base ++ [storeDirectory] ++ names ≠ base ++ [lockfileName] := by
    intro heq
    rw [List.append_assoc] at heq
    exact hne (List.cons.inj (List.append_cancel_left heq)).1
  refine (h.elsewhere _ hplace).resolve_right fun hmade => ?_
  have hlength := hmade.2.2.length_le
  simp only [List.dropLast_concat, List.length_append, List.length_singleton] at hlength
  omega

/-! ## What a run leaves -/

/-- **What a run on a lockfile leaves**, told from the stage that it came to. -/
structure Staged (path out : String) (policy : Policy) (fetchers : Fetchers)
    (schedule : List Turn) (tree : FileTree) (run : Run Report) : Prop where
  /-- Where preparing fails, nothing is asked for and nothing changes. -/
  unprepared : ∀ failure, prepare path policy tree = .error failure →
    run.outcome = .error failure ∧ run.calls = [] ∧ run.tree = tree
  /-- Where a download or its put fails, the run fails. -/
  failed : ∀ prepared, prepare path policy tree = .ok prepared →
    ∀ job ∈ ((Crew.start prepared.plan.fetches tree).run (storeIn out) fetchers schedule).jobs,
      ∀ failure, job.stage = .finished (.error failure) → ∃ failure, run.outcome = .error failure
  /-- A run that fails leaves the copy in the output directory as it was. -/
  uncopied : ∀ base failure, tree.Leads (Path.ofString out) base → run.outcome = .error failure →
    ∀ node, run.tree.lookUp (copyIn out) = .ok node ↔ tree.lookUp (copyIn out) = .ok node
  /-- In a new output directory a copy stands beside the contents and records of all packages. -/
  complete : ∀ base node, tree.Leads (Path.ofString out) base →
    tree.lookUp (Path.ofString out) ≠ .ok .directory →
    (∀ index url data, fetchers index url = .ok data → data.Measurable) →
    run.tree.lookUp (copyIn out) = .ok node →
    ∃ prepared, prepare path policy tree = .ok prepared ∧
      ∀ index fetch, prepared.plan.fetches[index]? = some fetch → ∃ package : FetchedPackage,
        package.package = fetch.package ∧ package.url = fetch.url ∧
        Vouched policy (fetchers index) prepared.map (storeIn out)
          (· ∈ putsBy fetchers prepared.plan.fetches) run.tree package
  /-- A run that returns leaves a copy of what it read. -/
  copied : ∀ report, run.outcome = .ok report → ∃ document,
    tree.readFile (Path.ofString path) = .ok document ∧
    run.tree.readFile (copyIn out) = .ok document

variable {first : LogRecord} {report : Report}

theorem closing_error {out : Path} (h : run.outcome = .error failure) :
    (closing first out document run).outcome = .error failure ∧
      (closing first out document run).tree = run.tree ∧
      (closing first out document run).calls = run.calls := by
  simp only [closing, h, and_self]

theorem closing_ok {out : Path} {copied : Except Failure Unit} (h : run.outcome = .ok report)
    (hcopy : (copyLockfile out document).run run.tree = (copied, after)) :
    (closing first out document run).outcome = copied.map (fun _ => report) ∧
      (closing first out document run).tree = after := by
  simp only [closing, h, hcopy, and_self]

/-- A run that closes without a report has left the place of the copy alone. -/
theorem get?_copy_of_failed (hleads : tree.Leads (Path.ofString out) base)
    (h : (closing first (Path.ofString out) document run).outcome = .error failure)
    (hwithin : Within (base ++ [storeDirectory]) tree run.tree) :
    tree.Grows (closing first (Path.ofString out) document run).tree ∧
      (closing first (Path.ofString out) document run).tree.get? (base ++ [lockfileName]) =
        tree.get? (base ++ [lockfileName]) := by
  have hsame := get?_copy_of_within hwithin
  cases houtcome : run.outcome with
  | error cause =>
      rw [(closing_error houtcome).2.1]
      exact ⟨hwithin.grows, hsame⟩
  | ok report =>
      rcases run_copyLockfile (hleads.mono hwithin.grows) document with
        ⟨cause, after, hcopy, hpaved⟩ | ⟨after, hcopy, _⟩
      · rw [(closing_ok houtcome hcopy).2]
        refine ⟨hwithin.grows.trans hpaved.grows, ?_⟩
        have hway : run.tree.Paved after (base ++ [lockfileName]).dropLast := by
          rw [List.dropLast_concat]
          exact hpaved
        rw [hway.get?_place (by simp), hsame]
      · rw [(closing_ok houtcome hcopy).1] at h
        cases h

/-- An output directory in which something stands is there. -/
theorem directory_of_copy {node : FileTree.Node} (hleads : tree.Leads (Path.ofString out) base)
    (h : tree.lookUp (copyIn out) = .ok node) :
    tree.lookUp (Path.ofString out) = .ok .directory := by
  rw [copyIn, join_lockfileName] at h
  obtain ⟨place, hlocate, _⟩ := FileTree.lookUp_eq_ok_iff.1 h
  have hrooted := FileTree.rooted_of_locate hleads (List.cons_ne_nil _ _) hlocate
  have hpath : FileTree.Admissible (Path.ofString out) :=
    (FileTree.admissible_of_locate_ok hlocate).above
  refine FileTree.lookUp_of_locate ?_ hrooted.directory
  rw [hpath.locate, hrooted.walk]

/-- **A store in a new output directory is fresh**, if the directory is there in the end. -/
theorem fresh_storeIn {node : FileTree.Node} (h : tree.WellFormed)
    (hleads : tree.Leads (Path.ofString out) base)
    (hnew : tree.lookUp (Path.ofString out) ≠ .ok .directory) (hgrows : tree.Grows after)
    (hcopy : after.lookUp (copyIn out) = .ok node) :
    (storeIn out).Fresh (base ++ [storeDirectory]) tree := by
  have hnone : tree.get? base ≠ some .directory := by
    intro hdir
    refine hnew ((h.lookUp_iff hgrows hleads ?_ _).1 (directory_of_copy (hleads.mono hgrows) hcopy))
    rw [hdir, hgrows.directory base hdir]
  exact ⟨h, leads_storeIn hleads, h.vacant_below hnone _ (List.cons_ne_nil _ _)⟩

/-- **A job that has succeeded on a fresh store is deposited.** -/
theorem deposited_of_run {store : Store} {fetches : List PlannedFetch} {index : Nat} {job : Job}
    {package : FetchedPackage} (h : store.Fresh base tree)
    (hsize : ∀ index url data, fetchers index url = .ok data → data.Measurable)
    (hjob : ((Crew.start fetches tree).run store fetchers schedule).jobs[index]? = some job)
    (hstage : job.stage = .finished (.ok package)) :
    ∃ ledger, store.Holds base (fun p => p.toPut ∈ putsBy fetchers fetches) ledger
        ((Crew.start fetches tree).run store fetchers schedule).tree ∧
      ∃ p ∈ ledger, Deposited (fetchers index) job.fetch p package := by
  obtain ⟨turns, hfollows⟩ := Crew.follows_run store fetchers fetches tree schedule
  obtain ⟨progress, htask, hmirrors⟩ := hfollows.stages index job hjob
  obtain ⟨data, token, hanswer, rfl, rfl⟩ := hmirrors.stored hstage
  rw [answer_eq hanswer] at htask
  have hconsistent := (Store.consistent_start h (putsBy fetchers fetches)).run
    (measurable_putsBy hsize fetches) turns
  obtain ⟨ledger, hholds, p, hp, hput, rfl⟩ :=
    hconsistent.mem_ledger (List.mem_of_getElem? htask)
  rw [hfollows.tree]
  obtain rfl : p.data = data := by rw [hput, putOf]
  exact ⟨ledger, hholds, p, hp, hanswer, hput, rfl⟩

/-! ## The stages of a run -/

/-- What is prepared and downloaded by a run that has come to its end. -/
theorem packagesBy_of_lockfileBy {prepared : Prepared}
    (hprepare : prepare path policy tree = .ok prepared)
    (hrun : lockfileBy path out policy fetchers schedule tree = some run) :
    tree.readFile (Path.ofString path) = .ok prepared.document ∧
      (Plan.make policy prepared.map).result = .ok prepared.plan ∧
      ∃ first fetched, packagesBy (storeIn out) policy fetchers (some prepared.version)
          prepared.map schedule tree = some fetched ∧
        fetched.tree = ((Crew.start prepared.plan.fetches tree).run (storeIn out) fetchers
          schedule).tree ∧
        run = closing first (Path.ofString out) prepared.document fetched := by
  rcases lockfileBy_eq path out policy fetchers schedule tree with
    ⟨failure, _, _, herror, _⟩ | ⟨found, first, hfound, hdocument, hplan, heq⟩
  · rw [hprepare] at herror
    cases herror
  · rw [hprepare] at hfound
    cases hfound
    rw [heq] at hrun
    obtain ⟨fetched, hfetched, rfl⟩ := Option.map_eq_some_iff.1 hrun
    refine ⟨hdocument, hplan, first, fetched, hfetched, ?_, rfl⟩
    rw [packagesBy_eq hplan] at hfetched
    obtain ⟨ended, hended, rfl⟩ := Option.map_eq_some_iff.1 hfetched
    exact (Crew.ended?_eq_some hended).2.1

/-- A run that returns was prepared. -/
theorem prepared_of_ok (hrun : lockfileBy path out policy fetchers schedule tree = some run)
    (h : run.outcome = .ok report) : ∃ prepared, prepare path policy tree = .ok prepared := by
  rcases lockfileBy_eq path out policy fetchers schedule tree with
    ⟨failure, log, warnings, _, heq⟩ | ⟨prepared, _, hprepare, _⟩
  · rw [hrun] at heq
    cases heq
    cases h
  · exact ⟨prepared, hprepare⟩

theorem unprepared_of_lockfileBy (herror : prepare path policy tree = .error failure)
    (hrun : lockfileBy path out policy fetchers schedule tree = some run) :
    run.outcome = .error failure ∧ run.calls = [] ∧ run.tree = tree := by
  rcases lockfileBy_eq path out policy fetchers schedule tree with
    ⟨cause, _, _, hcause, heq⟩ | ⟨_, _, hprepared, _⟩
  · rw [herror] at hcause
    cases hcause
    rw [hrun] at heq
    cases heq
    exact ⟨rfl, rfl, rfl⟩
  · rw [herror] at hprepared
    cases hprepared

/-- **A run that fails leaves the copy alone.** -/
theorem lookUp_copy_of_failed (h : tree.WellFormed) (hleads : tree.Leads (Path.ofString out) base)
    (hrun : lockfileBy path out policy fetchers schedule tree = some run)
    (hfailed : run.outcome = .error failure) (node : FileTree.Node) :
    run.tree.lookUp (copyIn out) = .ok node ↔ tree.lookUp (copyIn out) = .ok node := by
  cases hprepare : prepare path policy tree with
  | error cause => rw [(unprepared_of_lockfileBy hprepare hrun).2.2]
  | ok prepared =>
      obtain ⟨_, _, first, fetched, _, htree, rfl⟩ := packagesBy_of_lockfileBy hprepare hrun
      have hwithin : Within (base ++ [storeDirectory]) tree fetched.tree := by
        rw [htree]
        exact within_crew (leads_storeIn hleads) fetchers prepared.plan.fetches schedule
      obtain ⟨hgrows, hsame⟩ := get?_copy_of_failed hleads hfailed hwithin
      exact h.lookUp_iff hgrows (leads_copyIn hleads) hsame node

/-- **What was downloaded on a fresh store is vouched for**, behind the copy of the lockfile. -/
theorem vouched_of_lockfileBy {prepared : Prepared} {index : Nat} {fetch : PlannedFetch}
    (h : (storeIn out).Fresh (base ++ [storeDirectory]) tree)
    (hleads : tree.Leads (Path.ofString out) base)
    (hsize : ∀ index url data, fetchers index url = .ok data → data.Measurable)
    (hprepare : prepare path policy tree = .ok prepared)
    (hrun : lockfileBy path out policy fetchers schedule tree = some run)
    (hok : run.outcome = .ok report) (hfetch : prepared.plan.fetches[index]? = some fetch) :
    ∃ package : FetchedPackage, package.package = fetch.package ∧ package.url = fetch.url ∧
      Vouched policy (fetchers index) prepared.map (storeIn out)
        (· ∈ putsBy fetchers prepared.plan.fetches) run.tree package := by
  obtain ⟨_, hplan, first, fetched, hpackages, htree, rfl⟩ :=
    packagesBy_of_lockfileBy hprepare hrun
  have hall := allOrNothing_of_packagesBy hplan hpackages
  -- the run returns only if the downloads and the copy have been made
  cases houtcome : fetched.outcome with
  | error failure =>
      rw [(closing_error houtcome).1] at hok
      cases hok
  | ok found =>
      have hgrown : tree.Grows fetched.tree := by
        rw [htree]
        exact (within_crew (leads_storeIn hleads) fetchers _ schedule).grows
      rcases run_copyLockfile (hleads.mono hgrown) prepared.document with
        ⟨failure, after, hcopy, _⟩ | ⟨after, hcopy, hfiled⟩
      · rw [(closing_ok houtcome hcopy).1] at hok
        cases hok
      · rw [(closing_ok houtcome hcopy).2]
        -- the job of this download has succeeded, so that its deposit is in the ledger
        have hjobs := (hall.listed found houtcome).2
        obtain ⟨package, data, digest, hpackage, hreported⟩ :=
          hall.reported found houtcome index fetch hfetch
        have hfetched := hall.fetches
        rw [← hfetched, List.getElem?_map, Option.map_eq_some_iff] at hfetch
        obtain ⟨job, hjob, rfl⟩ := hfetch
        have hstage : job.stage = .finished (.ok package) := by
          have hat := congrArg (·[index]?) hjobs
          simp only [List.getElem?_map, hjob, hpackage, Option.map_some, Option.some.injEq] at hat
          exact hat
        obtain ⟨ledger, hholds, p, hp, hdeposited⟩ := deposited_of_run h hsize hjob hstage
        rw [← htree] at hholds
        have hbehind := hholds.aside hfiled.grows (get?_store_of_copied hfiled)
        refine ⟨package, ?_, ?_, vouched_of_mem hbehind hp hplan ?_ hdeposited⟩
        · rw [hreported.reported]
        · rw [hreported.reported]
        · rw [← hfetched]
          exact List.mem_map_of_mem (List.mem_of_getElem? hjob)

theorem staged_of_lockfileBy (h : tree.WellFormed)
    (hrun : lockfileBy path out policy fetchers schedule tree = some run) :
    Staged path out policy fetchers schedule tree run where
  unprepared := fun _ herror => unprepared_of_lockfileBy herror hrun
  failed := by
    intro prepared hprepare job hjob failure hstage
    obtain ⟨_, hplan, first, fetched, hpackages, _, rfl⟩ := packagesBy_of_lockfileBy hprepare hrun
    obtain ⟨cause, hcause⟩ := (allOrNothing_of_packagesBy hplan hpackages).failed job hjob failure
      hstage
    exact ⟨cause, (closing_error hcause).1⟩
  uncopied := fun _ _ hleads hfailed => lookUp_copy_of_failed h hleads hrun hfailed
  complete := by
    intro base node hleads hnew hsize hcopy
    cases houtcome : run.outcome with
    | error failure =>
        -- a run that fails makes no copy, and there was none in a directory that was not there
        have hbefore := (lookUp_copy_of_failed h hleads hrun houtcome node).1 hcopy
        exact absurd (directory_of_copy hleads hbefore) hnew
    | ok report =>
        obtain ⟨prepared, hprepare⟩ := prepared_of_ok hrun houtcome
        have hgrows := (confined_lockfileBy hrun).grows
        exact ⟨prepared, hprepare, fun index fetch hfetch => vouched_of_lockfileBy
          (fresh_storeIn h hleads hnew hgrows hcopy) hleads hsize hprepare hrun houtcome hfetch⟩
  copied := by
    intro report hok
    obtain ⟨prepared, hprepare⟩ := prepared_of_ok hrun hok
    obtain ⟨hdocument, _, first, fetched, _, _, rfl⟩ := packagesBy_of_lockfileBy hprepare hrun
    refine ⟨prepared.document, hdocument, ?_⟩
    cases houtcome : fetched.outcome with
    | error failure =>
        rw [(closing_error houtcome).1] at hok
        cases hok
    | ok found =>
        rcases hcopy : (copyLockfile (Path.ofString out) prepared.document).run fetched.tree with
          ⟨copied, after⟩
        obtain ⟨hcopied, htree⟩ := @closing_ok _ _ _ first _ _ _ houtcome hcopy
        rw [hcopied] at hok
        rw [htree]
        cases copied with
        | error failure => cases hok
        | ok _ => exact readFile_copyLockfile hcopy

/-- **A run on a lockfile is staged.** On every file tree, for every lockfile, output directory
and policy, and whatever the fetcher answers: what a run leaves is told from the stage that it
came to, for the run with a crew under every schedule, and for the run without one, which is one
of these. -/
theorem staged_run (h : tree.WellFormed) (path out : String) (policy : Policy) :
    (∀ fetcher, ∃ schedule,
      lockfileBy path out policy (fun _ => fetcher) schedule tree =
        some (lockfile path out policy fetcher tree) ∧
      Staged path out policy (fun _ => fetcher) schedule tree
        (lockfile path out policy fetcher tree)) ∧
    ∀ fetchers schedule run, lockfileBy path out policy fetchers schedule tree = some run →
      Staged path out policy fetchers schedule tree run := by
  refine ⟨fun fetcher => ?_, fun fetchers schedule run hrun => staged_of_lockfileBy h hrun⟩
  obtain ⟨schedule, hrun⟩ := lockfile_inTurn path out policy fetcher tree
  exact ⟨schedule, hrun, staged_of_lockfileBy h hrun⟩

/-! ## Letters -/

/-- A lockfile with a package that declares the digest of a letter. -/
def letterDocument : Bytes :=
  Encoding.Utf8.encode ("\x7b\"lockfileVersion\": 3, \"packages\": \x7b\"a\": \x7b\"resolved\": " ++
    "\"https://r/a\", \"integrity\": \"md5-DMF1ucDxtqgxw5niaXcmYQ==\"\x7d\x7d\x7d").toList

/-- The download of that package. -/
def letterFetch : PlannedFetch :=
  ⟨"a", "https://r/a", PlannedFetch.keyFor "https://r/a", some "md5-DMF1ucDxtqgxw5niaXcmYQ=="⟩

theorem measurable_letters (index : Nat) (url : String) (data : Bytes)
    (h : (fun _ => letters : Fetchers) index url = .ok data) : data.Measurable := by
  cases h
  exact Bytes.measurable_of_lt (by simp)

/-- A run that makes its output directory copies the lockfile beside what it downloaded. -/
theorem staged_run_new_directory :
    (treeWith letterDocument).WellFormed ∧
      (treeWith letterDocument).lookUp (Path.ofString "out") = .error .noEntry ∧
      (lockfile lockfileName "out" Policy.standard letters
        (treeWith letterDocument)).tree.readFile (copyIn "out") = .ok letterDocument ∧
      ∃ prepared package,
        prepare lockfileName Policy.standard (treeWith letterDocument) = .ok prepared ∧
        prepared.plan.fetches = [letterFetch] ∧
        Vouched Policy.standard letters prepared.map (storeIn "out")
          (· ∈ putsBy (fun _ => letters) [letterFetch])
          (lockfile lockfileName "out" Policy.standard letters (treeWith letterDocument)).tree
          package := by
  have hwell : (treeWith letterDocument).WellFormed :=
    FileTree.wellFormed_of_listed (by decide +kernel)
  have hnew : (treeWith letterDocument).lookUp (Path.ofString "out") = .error .noEntry := by
    decide +kernel
  have hleads : (treeWith letterDocument).Leads (Path.ofString "out")
      ((treeWith letterDocument).anchorPlace .workingDirectory ++ ["out"]) :=
    FileTree.leads_of_straight _ (by decide)
  have hdocument : (treeWith letterDocument).readFile (Path.ofString lockfileName) =
      .ok letterDocument := by
    decide +kernel
  have hfetches : (prepare lockfileName Policy.standard (treeWith letterDocument)).map
      (fun prepared => prepared.plan.fetches) = .ok [letterFetch] := by
    decide +kernel
  have hok : (lockfile lockfileName "out" Policy.standard letters
      (treeWith letterDocument)).outcome.isOk = true := by
    decide +kernel
  obtain ⟨schedule, _, hstaged⟩ :=
    (staged_run hwell lockfileName "out" Policy.standard).1 letters
  cases houtcome : (lockfile lockfileName "out" Policy.standard letters
      (treeWith letterDocument)).outcome with
  | error failure =>
      rw [houtcome] at hok
      cases hok
  | ok report =>
      obtain ⟨document, hread, hcopied⟩ := hstaged.copied report houtcome
      rw [hdocument] at hread
      obtain rfl : letterDocument = document := Except.ok.inj hread
      obtain ⟨prepared, hprepare, hall⟩ := hstaged.complete _ _ hleads (by rw [hnew]; nofun)
        measurable_letters (FileTree.lookUp_of_readFile hcopied)
      have hplan : prepared.plan.fetches = [letterFetch] := by
        rw [hprepare] at hfetches
        exact Except.ok.inj hfetches
      obtain ⟨package, _, _, hvouched⟩ := hall 0 letterFetch (by rw [hplan]; rfl)
      rw [hplan] at hvouched
      exact ⟨hwell, hnew, hcopied, prepared, package, hprepare, hplan, hvouched⟩

/-! ## Late directories -/

/-- A lockfile with two packages that declare the digests of letters. -/
def lettersDocument : Bytes :=
  Encoding.Utf8.encode ("\x7b\"lockfileVersion\": 3, \"packages\": \x7b" ++
    "\"a\": \x7b\"resolved\": \"https://r/a\", \"integrity\": " ++
      "\"md5-DMF1ucDxtqgxw5niaXcmYQ==\"\x7d, " ++
    "\"b\": \x7b\"resolved\": \"https://r/b\", \"integrity\": " ++
      "\"md5-kutf/uauL+w61xx3dTFXjw==\"\x7d\x7d\x7d").toList

/-- A working directory with a store in which a directory stands in the place of a letter. -/
def blockedTree : FileTree where
  nodes :=
    [([""], .directory), (["", lockfileName], .file lettersDocument),
      (["", storeDirectory], .directory), (["", storeDirectory, "content-v2"], .directory),
      (["", storeDirectory, "content-v2", "md5"], .directory),
      (["", storeDirectory, "content-v2", "md5", "92"], .directory),
      (["", storeDirectory, "content-v2", "md5", "92", "eb"], .directory),
      (["", storeDirectory, "content-v2", "md5", "92", "eb", "5ffee6ae2fec3ad71c777531578f"],
        .directory)]
  workingDirectory := [""]

/-- A policy of one download at a time. -/
def oneWorker : Policy := ⟨some 1, false, .warn, by simp⟩

/-- **In an output directory that comes into being late** the copy may stand beside a store that
lacks the content of a package: what was in the way of it is found behind the first put. -/
theorem staged_run_late_directory :
    blockedTree.WellFormed ∧ blockedTree.lookUp (Path.ofString "new/..") = .error .noEntry ∧
      (prepare lockfileName oneWorker blockedTree).map
          (fun prepared => prepared.plan.fetches.map PlannedFetch.integrity) =
        .ok [some "md5-DMF1ucDxtqgxw5niaXcmYQ==", some "md5-kutf/uauL+w61xx3dTFXjw=="] ∧
      (lockfile lockfileName "new/.." oneWorker letters blockedTree).tree.lookUp
        (copyIn "new/..") = .ok (.file lettersDocument) ∧
      ((storeIn "new/..").read
        (lockfile lockfileName "new/.." oneWorker letters blockedTree).tree
        "md5-kutf/uauL+w61xx3dTFXjw==").isOk = false :=
  ⟨FileTree.wellFormed_of_listed (by decide +kernel), by decide +kernel⟩

end Run

end LockPrefetch
