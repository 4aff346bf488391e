import LockPrefetch.Proofs.Cache.Order
import LockPrefetch.Proofs.Cache.Serving
import LockPrefetch.Proofs.Run.Outcome

/-! # What tells two runs apart

The downloads of one plan may reach the store in any order. Below a fresh root all that the order
can change is the order of the lines in a bucket and which of several contents with one digest is
kept (`LeftBy.rearranged`). If the hashes of keys and contents keep the downloads apart, the tree
is the same for every order exactly if downloads from one URL go by one token: then their puts
are alike (`alike_of_agreeing`), and otherwise the bucket of the URL tells which of two downloads
came first (`first_download_shows`).

Plans whose downloads do not agree are made from ordinary maps: two copies of a package may share
a URL and declare its content by different functions. -/

set_option autoImplicit false

namespace LockPrefetch.Run

open Cache (bucketNames)
open Store (Put Deposit Session Progress Consistent Stored Furnished Rearranged Alike Declares)

variable {store : Store} {fetcher : Fetcher} {tree after first second : FileTree}
  {base : Location} {fetch other : PlannedFetch} {fetches order : List PlannedFetch}
  {listed : List FetchedPackage} {ledger : List Deposit} {p : Deposit} {policy : Policy}
  {version : Option Int} {map : List (String × Package)} {plan : Plan} {rest : List String}
  {bound : Nat} {session : Session}

/-! ## Trees that downloads leave -/

/-- **A tree that downloads leave** when they are taken in some order by a crew under some
schedule, and all of them succeed. -/
def LeftBy (store : Store) (fetcher : Fetcher) (fetches : List PlannedFetch)
    (tree after : FileTree) : Prop :=
  ∃ order schedule fetched listed, fetches.Perm order ∧
    ((Crew.start order tree).run store (fun _ => fetcher) schedule).ended? = some fetched ∧
    fetched.outcome = .ok listed ∧ fetched.tree = after

/-- A run that returns a report leaves a tree that its downloads leave. -/
theorem leftBy_of_packagesBy (hplan : (Plan.make policy map).result = .ok plan)
    {schedule : List Turn} {run : Run Report} {report : Report}
    (hrun : packagesBy store policy (fun _ => fetcher) version map schedule tree = some run)
    (hreport : run.outcome = .ok report) : LeftBy store fetcher plan.fetches tree run.tree := by
  rw [packagesBy_eq hplan] at hrun
  obtain ⟨fetched, hended, rfl⟩ := Option.map_eq_some_iff.1 hrun
  cases hout : fetched.outcome with
  | error failure => simp [reported, hout, Except.map] at hreport
  | ok listed => exact ⟨_, schedule, fetched, listed, List.Perm.refl _, hended, hout, rfl⟩

/-- So do downloads that are taken one after another. -/
theorem leftBy_of_fetchAll (hperm : fetches.Perm order)
    (hall : (fetchAll store fetcher order tree).outcome = .ok listed) :
    LeftBy store fetcher fetches tree (fetchAll store fetcher order tree).tree :=
  ⟨order, _, _, listed, hperm, Crew.ended?_inTurn store fetcher order tree, hall, rfl⟩

/-! ## The puts behind a tree -/

theorem putsBy_same (fetcher : Fetcher) (fetches : List PlannedFetch) :
    putsBy (fun _ => fetcher) fetches =
      fetches.map fun fetch => putOf fetch (answer (fun _ => fetcher) 0 fetch) := by
  refine List.ext_getElem? fun index => ?_
  rw [putsBy, List.getElem?_mapIdx, List.getElem?_map]
  rfl

/-- **A session that has stored downloads** below a fresh root. -/
structure Filled (store : Store) (fetcher : Fetcher) (base : Location)
    (fetches : List PlannedFetch) (session : Session) : Prop where
  fetched : ∀ fetch ∈ fetches, ∃ data, fetcher fetch.url = .ok data
  consistent : Consistent store base (putsBy (fun _ => fetcher) fetches) session
  stored : Stored session
  furnished : Furnished base (putsBy (fun _ => fetcher) fetches) session.tree

/-- If a job has succeeded, its put has returned. -/
theorem Follows.returned {fetchers : Fetchers} {crew : Crew} {index : Nat} {job : Job}
    {package : FetchedPackage} (h : Follows fetchers crew session)
    (hjob : crew.jobs[index]? = some job) (hstage : job.stage = .finished (.ok package)) :
    (∃ data, fetchers index job.fetch.url = .ok data) ∧
      ∃ task, session.tasks[index]? = some task ∧ task.2.returned = true := by
  obtain ⟨progress, htask, hmirrors⟩ := h.stages index job hjob
  obtain ⟨data, token, hdata, rfl, _⟩ := hmirrors.stored hstage
  exact ⟨⟨data, hdata⟩, _, htask, rfl⟩

/-- **Behind a tree that downloads leave** there are puts that took turns and have returned. -/
theorem LeftBy.filled (h : LeftBy store fetcher fetches tree after)
    (hfresh : store.Fresh base tree)
    (hsize : ∀ url data, fetcher url = .ok data → data.Measurable) :
    ∃ order session, fetches.Perm order ∧ session.tree = after ∧
      Filled store fetcher base order session := by
  obtain ⟨order, schedule, fetched, listed, hperm, hended, hout, rfl⟩ := h
  obtain ⟨turns, hfollows⟩ := Crew.follows_run store (fun _ => fetcher) order tree schedule
  have hfetches := Crew.fetches_start store (fun _ => fetcher) order tree schedule
  have hfinished :=
    Crew.finished_of_ended ((ruled_start order tree).run schedule) hended hout
  have htree := (Crew.ended?_eq_some hended).2.1
  generalize (Crew.start order tree).run store (fun _ => fetcher) schedule = crew at *
  have hmeasurable := measurable_putsBy (fun _ => hsize) order
  have hstart := Store.consistent_start hfresh (putsBy (fun _ => fetcher) order)
  have hconsistent := hstart.run hmeasurable turns
  refine ⟨order, _, hperm, hfollows.tree.symm.trans htree.symm, ?_, hconsistent, ?_,
    (hfresh.furnished _).run hstart hmeasurable turns⟩
  · intro fetch hfetch
    rw [← hfetches] at hfetch
    obtain ⟨job, hjob, rfl⟩ := List.mem_map.1 hfetch
    obtain ⟨package, hstage⟩ := hfinished job hjob
    obtain ⟨index, hindex⟩ := List.mem_iff_getElem?.1 hjob
    exact (hfollows.returned hindex hstage).1
  · intro task htask
    obtain ⟨index, hindex⟩ := List.mem_iff_getElem?.1 htask
    -- there is a job for each put
    have hlength : crew.jobs.length = (putsBy (fun _ => fetcher) order).length := by
      rw [← List.length_map, hfetches, putsBy_same, List.length_map]
    rw [← hconsistent.same, List.length_map] at hlength
    have hlt := (List.getElem?_eq_some_iff.1 hindex).1
    obtain ⟨job, hjob⟩ : ∃ job, crew.jobs[index]? = some job :=
      ⟨_, List.getElem?_eq_getElem (hlength ▸ hlt)⟩
    obtain ⟨package, hstage⟩ := hfinished job (List.mem_of_getElem? hjob)
    obtain ⟨_, returned, hsame, hreturned⟩ := hfollows.returned hjob hstage
    obtain rfl : task = returned := Option.some.inj (hindex.symm.trans hsame)
    exact hreturned

/-- The puts of downloads in another order. -/
theorem putsBy_perm (fetcher : Fetcher) (hperm : fetches.Perm order) :
    (putsBy (fun _ => fetcher) fetches).Perm (putsBy (fun _ => fetcher) order) := by
  rw [putsBy_same, putsBy_same]
  exact hperm.map _

/-- **Two trees that downloads leave** are rearranged at most, and the same if the puts are
alike. -/
theorem LeftBy.rearranged (h : LeftBy store fetcher fetches tree first)
    (h' : LeftBy store fetcher fetches tree second) (hfresh : store.Fresh base tree)
    (hsize : ∀ url data, fetcher url = .ok data → data.Measurable) :
    Rearranged store base (putsBy (fun _ => fetcher) fetches) first second ∧
      (Alike (putsBy (fun _ => fetcher) fetches) → ∀ names,
        first.get? (base ++ names) = second.get? (base ++ names)) := by
  obtain ⟨order, session, hperm, rfl, hfilled⟩ := h.filled hfresh hsize
  obtain ⟨order', session', hperm', rfl, hfilled'⟩ := h'.filled hfresh hsize
  have hputs := putsBy_perm fetcher hperm
  have hsame := hputs.symm.trans (putsBy_perm fetcher hperm')
  constructor
  · exact (Store.rearranged_of_consistent hfilled.consistent hfilled'.consistent hsame
      hfilled.stored hfilled'.stored hfilled.furnished hfilled'.furnished).perm hputs.symm
  · intro halike names
    exact Store.same_of_alike (halike.perm hputs) hfilled.consistent hfilled'.consistent
      hsame hfilled.stored hfilled'.stored hfilled.furnished hfilled'.furnished names

/-! ## Downloads that agree -/

/-- **Downloads from one URL go by one token**: the digests that they are verified with, of the
content there, are written the same. -/
def Agreeing (fetcher : Fetcher) (fetches : List PlannedFetch) : Prop :=
  ∀ fetch ∈ fetches, ∀ other ∈ fetches, fetch.url = other.url → ∀ data digest digest',
    fetcher fetch.url = .ok data → digest.Of data → digest'.Of data →
    Declares fetch.integrity digest → Declares other.integrity digest' →
    digest.token = digest'.token

/-- **Hashes keep downloads apart**: those of the keys of different URLs, and those of different
contents. -/
structure Separate (fetcher : Fetcher) (fetches : List PlannedFetch) : Prop where
  buckets : ∀ fetch ∈ fetches, ∀ other ∈ fetches,
    Cache.keyHash fetch.cacheKey = Cache.keyHash other.cacheKey → fetch.url = other.url
  contents : ∀ fetch ∈ fetches, ∀ other ∈ fetches, ∀ data data' digest,
    fetcher fetch.url = .ok data → fetcher other.url = .ok data' →
    Digest.Of digest data → digest.Of data' → data = data'

/-- Downloads that declare the same wherever they share a URL agree. -/
theorem agreeing_of_declared (h : ∀ fetch ∈ fetches, ∀ other ∈ fetches, fetch.url = other.url →
    fetch.integrity = other.integrity) : Agreeing fetcher fetches := by
  intro fetch hfetch other hother hurl data digest digest' _ hof hof' hdeclares hdeclares'
  rw [← h fetch hfetch other hother hurl] at hdeclares'
  have hverify := @Store.verify_eq_ok_iff fetch.cacheKey fetch.url data fetch.integrity
  have hfirst := hverify.2 ⟨hof, hdeclares⟩
  rw [hverify.2 ⟨hof', hdeclares'⟩] at hfirst
  rw [Except.ok.inj hfirst]

/-- Puts of downloads come from them. -/
theorem fetch_of_put (hfetched : ∀ fetch ∈ fetches, ∃ data, fetcher fetch.url = .ok data)
    (hput : p.toPut ∈ putsBy (fun _ => fetcher) fetches) :
    ∃ fetch ∈ fetches, fetcher fetch.url = .ok p.data ∧ p.toPut = putOf fetch p.data := by
  rw [putsBy_same] at hput
  obtain ⟨fetch, hfetch, heq⟩ := List.mem_map.1 hput
  obtain ⟨data, hdata⟩ := hfetched fetch hfetch
  rw [answer_eq (show (fun _ => fetcher) 0 fetch.url = .ok data from hdata)] at heq
  have hsame : p.data = data := by rw [← heq, putOf]
  rw [← hsame] at hdata heq
  exact ⟨fetch, hfetch, hdata, heq.symm⟩

/-- **Downloads that agree are put alike**, if hashes keep them apart. -/
theorem alike_of_agreeing (hagree : Agreeing fetcher fetches) (hseparate : Separate fetcher fetches)
    (hkeys : ∀ fetch ∈ fetches, fetch.cacheKey = PlannedFetch.keyFor fetch.url)
    (hfetched : ∀ fetch ∈ fetches, ∃ data, fetcher fetch.url = .ok data) :
    Alike (putsBy (fun _ => fetcher) fetches) where
  records := by
    intro p q hp hq hbucket
    obtain ⟨fetch, hfetch, hdata, hput⟩ := fetch_of_put hfetched hp
    obtain ⟨other, hother, hdata', hput'⟩ := fetch_of_put hfetched hq
    have hkey : p.key = fetch.cacheKey := by rw [hput, putOf]
    have hkey' : q.key = other.cacheKey := by rw [hput', putOf]
    rw [hkey, hkey', Cache.bucketNames_inj] at hbucket
    have hurl := hseparate.buckets fetch hfetch other hother hbucket
    have hsame : p.data = q.data := by
      rw [hurl, hdata'] at hdata
      exact (Except.ok.inj hdata).symm
    have hdeclares := (Store.verify_eq_ok_iff.1 p.verified).2
    have hdeclares' := (Store.verify_eq_ok_iff.1 q.verified).2
    rw [hput] at hdeclares
    rw [hput'] at hdeclares'
    have htoken := hagree fetch hfetch other hother hurl p.data p.digest q.digest hdata p.of_data
      (hsame ▸ q.of_data) hdeclares hdeclares'
    have hkeys' : p.key = q.key := by
      rw [hkey, hkey', hkeys fetch hfetch, hkeys other hother, hurl]
    have hurls : p.url = q.url := by
      rw [hput, hput', putOf, putOf, hurl]
    rw [Deposit.line, Deposit.line, Store.lineOctets, Store.lineOctets, hkeys', hurls, htoken,
      hsame]
  contents := by
    intro p q hp hq hdigest
    obtain ⟨fetch, hfetch, hdata, _⟩ := fetch_of_put hfetched hp
    obtain ⟨other, hother, hdata', _⟩ := fetch_of_put hfetched hq
    exact hseparate.contents fetch hfetch other hother p.data q.data p.digest hdata hdata' p.of_data
      (hdigest ▸ q.of_data)

/-! ## One download after another -/

/-- Downloads of which the first one succeeds. -/
theorem fetchAll_cons {package : FetchedPackage} {mid : FileTree}
    (hone : (fetchOne store fetcher fetch).run tree = (.ok package, mid))
    (fetches : List PlannedFetch) :
    (fetchAll store fetcher (fetch :: fetches) tree).outcome =
        (fetchAll store fetcher fetches mid).outcome.map (package :: ·) ∧
      (fetchAll store fetcher (fetch :: fetches) tree).tree =
        (fetchAll store fetcher fetches mid).tree := by
  simp only [fetchAll, hone, and_self]

/-- If downloads succeed, the first one does. -/
theorem fetchOne_of_fetchAll
    (hall : (fetchAll store fetcher (fetch :: fetches) tree).outcome = .ok listed) :
    ∃ package mid others, (fetchOne store fetcher fetch).run tree = (.ok package, mid) ∧
      (fetchAll store fetcher fetches mid).outcome = .ok others := by
  rcases hone : (fetchOne store fetcher fetch).run tree with ⟨result, mid⟩
  cases result with
  | error failure => simp [fetchAll, hone] at hall
  | ok package =>
      rw [(fetchAll_cons hone fetches).1] at hall
      cases hlater : (fetchAll store fetcher fetches mid).outcome with
      | error failure => simp [hlater, Except.map] at hall
      | ok others => exact ⟨package, mid, others, rfl, hlater⟩

/-- A download that succeeds extends any ledger by its deposit. -/
theorem deposit_of_fetchOne {package : FetchedPackage}
    (h : store.Holds base (fun _ => True) ledger tree)
    (hsize : ∀ url data, fetcher url = .ok data → data.Measurable)
    (hone : (fetchOne store fetcher fetch).run tree = (.ok package, after)) :
    ∃ p, Deposited fetcher fetch p package ∧
      store.Holds base (fun _ => True) (ledger ++ [p]) after :=
  @holds_fetchOne _ _ _ _ _ _ _ (fun _ => True) h hsize (fun _ _ => trivial) _ hone

/-- **The first download is the first deposit** in the ledger below a fresh root. -/
theorem first_deposit (h : store.Fresh base tree)
    (hsize : ∀ url data, fetcher url = .ok data → data.Measurable)
    (hall : (fetchAll store fetcher (fetch :: fetches) tree).outcome = .ok listed) :
    ∃ p package more, Deposited fetcher fetch p package ∧
      store.Holds base (fun _ => True) (p :: more)
        (fetchAll store fetcher (fetch :: fetches) tree).tree := by
  obtain ⟨package, mid, others, hone, hlater⟩ := fetchOne_of_fetchAll hall
  obtain ⟨p, hdeposited, hholds⟩ := deposit_of_fetchOne (h.holds fun _ => True) hsize hone
  obtain ⟨more, hmore, _⟩ := @holds_fetchAll _ _ _ _ _ _ _ (fun _ => True) hholds hsize
    (fun _ _ _ _ => trivial) hlater
  rw [(fetchAll_cons hone fetches).2]
  exact ⟨p, package, more, hdeposited, hmore⟩

/-- **The first of two downloads from one URL shows** in the bucket of the URL, if they go by
different tokens. -/
theorem first_download_shows {fetches' : List PlannedFetch} {listed' : List FetchedPackage}
    {data : Bytes} {digest digest' : Digest} (h : store.Fresh base tree)
    (hsize : ∀ url data, fetcher url = .ok data → data.Measurable)
    (hkey : fetch.cacheKey = other.cacheKey) (hurl : fetch.url = other.url)
    (hdata : fetcher fetch.url = .ok data) (hof : digest.Of data) (hof' : digest'.Of data)
    (hdeclares : Declares fetch.integrity digest) (hdeclares' : Declares other.integrity digest')
    (htoken : digest.token ≠ digest'.token)
    (hall : (fetchAll store fetcher (fetch :: fetches) tree).outcome = .ok listed)
    (hall' : (fetchAll store fetcher (other :: fetches') tree).outcome = .ok listed') :
    (fetchAll store fetcher (fetch :: fetches) tree).tree.get?
        (base ++ bucketNames fetch.cacheKey) ≠
      (fetchAll store fetcher (other :: fetches') tree).tree.get?
        (base ++ bucketNames fetch.cacheKey) := by
  -- a deposit goes by the digest that its download declares
  have hdigest : ∀ {fetch p package digest}, Deposited fetcher fetch p package →
      fetcher fetch.url = .ok data → digest.Of data → Declares fetch.integrity digest →
      p.digest = digest := by
    intro fetch p package digest hdeposited hdata hof hdeclares
    have hverified := p.verified
    have hsame : p.data = data := Except.ok.inj (hdeposited.fetched.symm.trans hdata)
    rw [hdeposited.asked, putOf, hsame,
      Store.verify_eq_ok_iff.2 ⟨hof, hdeclares⟩] at hverified
    exact (Except.ok.inj hverified).symm
  obtain ⟨p, _, more, hdeposited, hholds⟩ := first_deposit h hsize hall
  obtain ⟨q, _, more', hdeposited', hholds'⟩ := first_deposit h hsize hall'
  have hp : p.key = fetch.cacheKey := by rw [hdeposited.asked, putOf]
  have hq : q.key = other.cacheKey := by rw [hdeposited'.asked, putOf]
  rw [← hp]
  refine hholds.first_shows hholds' (hp.trans (hkey.trans hq.symm)) ?_
  rw [hdigest hdeposited hdata hof hdeclares,
    hdigest hdeposited' (hurl ▸ hdata) hof' hdeclares']
  exact htoken

/-! ## Stores that take every download -/

/-- The content of a download has the digest that it declares. -/
def Matching (fetcher : Fetcher) (fetch : PlannedFetch) : Prop :=
  ∃ data digest, fetcher fetch.url = .ok data ∧
    Store.verify fetch.cacheKey fetch.url data fetch.integrity = .ok digest

theorem fetchOne_met {data : Bytes} {token : String} (hdata : fetcher fetch.url = .ok data)
    (hput : (store.put fetch.cacheKey fetch.url data fetch.integrity).run tree =
      (.ok token, after)) :
    (fetchOne store fetcher fetch).run tree =
      (.ok ⟨fetch.package, fetch.url, token, data.length⟩, after) := by
  rw [run_fetchOne, hdata]
  simp only [hput]
  rfl

/-- **A store that has taken a put takes all downloads** whose contents match. -/
theorem fetchAll_again (h : (Store.relative rest).Holds base (fun _ => True) ledger tree)
    (hp : p ∈ ledger) (hstraight : ".." ∉ rest) (hmodest : FileTree.Modest rest bound)
    (hbound : bound ≤ 100) (hsize : ∀ url data, fetcher url = .ok data → data.Measurable)
    (hmatching : ∀ fetch ∈ fetches, Matching fetcher fetch) :
    ∃ listed, (fetchAll (Store.relative rest) fetcher fetches tree).outcome = .ok listed := by
  induction fetches generalizing tree ledger p with
  | nil => exact ⟨[], rfl⟩
  | cons fetch others ih =>
      obtain ⟨data, digest, hdata, hverify⟩ := hmatching fetch List.mem_cons_self
      obtain ⟨mid, hput⟩ := h.run_put_again hp hstraight hmodest hbound hverify
      have hone := fetchOne_met hdata hput
      obtain ⟨q, _, hholds⟩ := deposit_of_fetchOne h hsize hone
      obtain ⟨listed, hlater⟩ := ih hholds (List.mem_append_left _ hp)
        fun other hother => hmatching other (List.mem_cons_of_mem _ hother)
      rw [(fetchAll_cons hone others).1, hlater]
      exact ⟨_, rfl⟩

/-- **On an empty tree all downloads succeed** whose contents match, in any order. -/
theorem fetchAll_empty (hstraight : ".." ∉ rest) (hmodest : FileTree.Modest rest bound)
    (hbound : bound ≤ 100) (hsize : ∀ url data, fetcher url = .ok data → data.Measurable)
    (hfresh : (Store.relative rest).Fresh ([""] ++ rest) FileTree.empty)
    (hmatching : ∀ fetch ∈ fetches, Matching fetcher fetch) :
    ∃ listed,
      (fetchAll (Store.relative rest) fetcher fetches FileTree.empty).outcome = .ok listed := by
  cases fetches with
  | nil => exact ⟨[], rfl⟩
  | cons fetch others =>
      have hholds := hfresh.holds fun _ => True
      obtain ⟨data, digest, hdata, hverify⟩ := hmatching fetch List.mem_cons_self
      obtain ⟨mid, hput⟩ := @Store.Holds.run_put_met FileTree.empty rest digest fetch.cacheKey
        fetch.url data fetch.integrity [] (fun _ => True) bound hholds rfl
        (Store.clear_empty rest) hstraight hmodest hbound hverify
      have hone := fetchOne_met hdata hput
      obtain ⟨p, _, hmore⟩ := deposit_of_fetchOne hholds hsize hone
      obtain ⟨listed, hlater⟩ := fetchAll_again hmore (List.mem_singleton_self p) hstraight
        hmodest hbound hsize fun other hother => hmatching other (List.mem_cons_of_mem _ hother)
      rw [(fetchAll_cons hone others).1, hlater]
      exact ⟨_, rfl⟩

/-! ## Runs -/

/-- **What two runs on a plan have in common** below a fresh root, whatever order their downloads
take. All runs that return a report leave a tree that the downloads leave in some order; any two
such trees are rearranged at most. If hashes keep the downloads apart, the trees are the same for
all orders exactly if downloads from one URL go by one token. -/
theorem same_tree_iff_agreeing (h : store.Fresh base tree)
    (hsize : ∀ url data, fetcher url = .ok data → data.Measurable)
    (hplan : (Plan.make policy map).result = .ok plan) (version : Option Int) :
    (∀ schedule run report,
      packagesBy store policy (fun _ => fetcher) version map schedule tree = some run →
      run.outcome = .ok report → LeftBy store fetcher plan.fetches tree run.tree) ∧
    (∀ first second, LeftBy store fetcher plan.fetches tree first →
      LeftBy store fetcher plan.fetches tree second →
      Rearranged store base (putsBy (fun _ => fetcher) plan.fetches) first second) ∧
    (Separate fetcher plan.fetches → Agreeing fetcher plan.fetches → ∀ first second,
      LeftBy store fetcher plan.fetches tree first →
      LeftBy store fetcher plan.fetches tree second →
      ∀ names, first.get? (base ++ names) = second.get? (base ++ names)) ∧
    ((∀ order, plan.fetches.Perm order →
        ∃ listed, (fetchAll store fetcher order tree).outcome = .ok listed) →
      ¬ Agreeing fetcher plan.fetches → ∃ first second,
        LeftBy store fetcher plan.fetches tree first ∧
        LeftBy store fetcher plan.fetches tree second ∧
        ∃ names, first.get? (base ++ names) ≠ second.get? (base ++ names)) := by
  have hkeys : ∀ fetch ∈ plan.fetches, fetch.cacheKey = PlannedFetch.keyFor fetch.url := by
    intro fetch hfetch
    obtain ⟨_, _, _, _, hplanned⟩ := Plan.planned_of_mem hplan hfetch
    exact (PlannedFetch.plan_ok hplanned).2.cacheKey
  refine ⟨fun _ _ _ hrun hreport => leftBy_of_packagesBy hplan hrun hreport,
    fun _ _ hfirst hsecond => (hfirst.rearranged hsecond h hsize).1, ?_, ?_⟩
  · intro hseparate hagree first second hfirst hsecond
    refine (hfirst.rearranged hsecond h hsize).2 (alike_of_agreeing hagree hseparate hkeys ?_)
    intro fetch hfetch
    obtain ⟨order, _, hperm, _, hfilled⟩ := hfirst.filled h hsize
    exact hfilled.fetched fetch (hperm.mem_iff.1 hfetch)
  · intro hsucceed hdisagree
    simp only [Agreeing, not_forall] at hdisagree
    obtain ⟨fetch, hfetch, other, hother, hurl, data, digest, digest', hdata, hof, hof', hdeclares,
      hdeclares', htoken⟩ := hdisagree
    -- either of the two may come first
    have hperm := List.perm_cons_erase hfetch
    have hperm' := List.perm_cons_erase hother
    obtain ⟨listed, hall⟩ := hsucceed _ hperm
    obtain ⟨listed', hall'⟩ := hsucceed _ hperm'
    have hkey : fetch.cacheKey = other.cacheKey := by
      rw [hkeys fetch hfetch, hkeys other hother, hurl]
    exact ⟨_, _, leftBy_of_fetchAll hperm hall, leftBy_of_fetchAll hperm' hall', _,
      first_download_shows h hsize hkey hurl hdata hof hof' hdeclares hdeclares' htoken hall hall'⟩

/-! ## Maps of two packages -/

/-- A fetcher that has a letter behind every URL. -/
def letter : Fetcher := fun _ => .ok [98]

theorem measurable_letter (url : String) (data : Bytes) (h : letter url = .ok data) :
    data.Measurable := by
  cases h
  exact Bytes.measurable_of_lt (by decide)

theorem fresh_out : (Store.relative ["out"]).Fresh ["", "out"] FileTree.empty :=
  ⟨Store.wellFormed_empty, FileTree.leads_of_straight _ (by decide), by decide⟩

/-- Below an empty working directory downloads of the letter succeed in every order. -/
theorem fetchAll_letter (hperm : fetches.Perm order)
    (hmatching : ∀ fetch ∈ fetches, Matching letter fetch) :
    ∃ listed, (fetchAll (Store.relative ["out"]) letter order FileTree.empty).outcome =
      .ok listed :=
  fetchAll_empty (by decide) (show FileTree.Modest ["out"] 10 from ⟨by decide, by decide⟩)
    (by decide) measurable_letter fresh_out fun fetch hfetch =>
      hmatching fetch (hperm.mem_iff.2 hfetch)

/-- Two packages from two URLs leave the same tree whichever comes first. -/
theorem same_tree_two_packages :
    (Store.relative ["out"]).Fresh ["", "out"] FileTree.empty ∧
      (∀ url data, letter url = .ok data → data.Measurable) ∧
      (Plan.make Policy.standard twoPackages).result = .ok ⟨twoFetches, []⟩ ∧
      ∃ first second,
        fetchAll (Store.relative ["out"]) letter twoFetches FileTree.empty = first ∧
        fetchAll (Store.relative ["out"]) letter twoFetches.reverse FileTree.empty = second ∧
        (∃ listed, first.outcome = .ok listed) ∧ (∃ listed, second.outcome = .ok listed) ∧
        ∀ names, first.tree.get? (["", "out"] ++ names) =
          second.tree.get? (["", "out"] ++ names) := by
  have hmatching : ∀ fetch ∈ twoFetches, Matching letter fetch := by
    intro fetch hfetch
    have hnone : fetch.integrity = none := by
      revert fetch
      decide
    exact ⟨[98], _, rfl, hnone ▸ Store.verify_default _ _ _⟩
  have hreverse : twoFetches.Perm twoFetches.reverse := (List.reverse_perm twoFetches).symm
  obtain ⟨listed, hall⟩ := fetchAll_letter (List.Perm.refl _) hmatching
  obtain ⟨listed', hall'⟩ := fetchAll_letter hreverse hmatching
  have hseparate : Separate letter twoFetches := by
    refine ⟨by decide +kernel, ?_⟩
    intro _ _ _ _ data data' _ hdata hdata' _ _
    exact Except.ok.inj (hdata.symm.trans hdata')
  have hagree : Agreeing letter twoFetches := agreeing_of_declared (by decide)
  obtain ⟨_, _, hsame, _⟩ :=
    same_tree_iff_agreeing fresh_out measurable_letter make_twoPackages none
  exact ⟨fresh_out, measurable_letter, make_twoPackages, _, _, rfl, rfl, ⟨listed, hall⟩,
    ⟨listed', hall'⟩, hsame hseparate hagree _ _ (leftBy_of_fetchAll (List.Perm.refl _) hall)
      (leftBy_of_fetchAll hreverse hall')⟩

/-- A digest that is verified, from the token that it goes by. -/
theorem exists_of_token {result : Except Failure Digest} {declared : Option String}
    (h : (result.toOption.map Digest.token) = declared) (hsome : declared.isSome = true) :
    ∃ digest, result = .ok digest ∧ some digest.token = declared := by
  cases result with
  | error failure =>
      rw [← h] at hsome
      cases hsome
  | ok digest => exact ⟨digest, rfl, h⟩

/-- The token of the letter that an up-to-date lockfile declares. -/
def newerToken : String :=
  "sha512-Umd2iCLuYk1I/OFexcp5y9YCy39MIVelFlVpkfIu+Me173sY0f9BxZNw77CFhlHUSpNsEbexRMSP4E3zxqPo2g=="

/-- The token of the letter that an old lockfile declares. -/
def olderToken : String := "sha1-6dcfXufJLW3J6S/9rRe4vUlBj5g="

/-- A map of two copies of a package, of which one kept its older token. -/
def twoCopies : List (String × Package) :=
  [("node_modules/a", ⟨some (.url ⟨"https://r/a"⟩), some newerToken⟩),
    ("node_modules/b/node_modules/a", ⟨some (.url ⟨"https://r/a"⟩), some olderToken⟩)]

/-- The download of the first copy. -/
def newerCopy : PlannedFetch :=
  ⟨"node_modules/a", "https://r/a", PlannedFetch.keyFor "https://r/a", some newerToken⟩

/-- The download of the second copy. -/
def olderCopy : PlannedFetch :=
  ⟨"node_modules/b/node_modules/a", "https://r/a", PlannedFetch.keyFor "https://r/a",
    some olderToken⟩

/-- **Two copies of a package leave different trees** in different orders, if they share a URL
and declare digests of different functions. -/
theorem different_trees_shared_url :
    (Store.relative ["out"]).Fresh ["", "out"] FileTree.empty ∧
      (Plan.make Policy.standard twoCopies).result = .ok ⟨[newerCopy, olderCopy], []⟩ ∧
      ∃ first second,
        fetchAll (Store.relative ["out"]) letter [newerCopy, olderCopy] FileTree.empty = first ∧
        fetchAll (Store.relative ["out"]) letter [olderCopy, newerCopy] FileTree.empty = second ∧
        (∃ listed, first.outcome = .ok listed) ∧ (∃ listed, second.outcome = .ok listed) ∧
        first.tree.get? (["", "out"] ++ bucketNames (PlannedFetch.keyFor "https://r/a")) ≠
          second.tree.get? (["", "out"] ++ bucketNames (PlannedFetch.keyFor "https://r/a")) := by
  have hplan : (Plan.make Policy.standard twoCopies).result = .ok ⟨[newerCopy, olderCopy], []⟩ := by
    decide +kernel
  obtain ⟨digest, hverify, htoken⟩ : ∃ digest, Store.verify newerCopy.cacheKey newerCopy.url [98]
      newerCopy.integrity = .ok digest ∧ some digest.token = newerCopy.integrity :=
    exists_of_token (by decide +kernel) rfl
  obtain ⟨digest', hverify', htoken'⟩ : ∃ digest, Store.verify olderCopy.cacheKey olderCopy.url [98]
      olderCopy.integrity = .ok digest ∧ some digest.token = olderCopy.integrity :=
    exists_of_token (by decide +kernel) rfl
  have hmatching : ∀ fetch ∈ [newerCopy, olderCopy], Matching letter fetch := by
    intro fetch hfetch
    simp only [List.mem_cons, List.not_mem_nil, or_false] at hfetch
    rcases hfetch with rfl | rfl
    · exact ⟨[98], digest, rfl, hverify⟩
    · exact ⟨[98], digest', rfl, hverify'⟩
  obtain ⟨listed, hall⟩ := fetchAll_letter (List.Perm.refl _) hmatching
  obtain ⟨listed', hall'⟩ := fetchAll_letter (List.Perm.swap olderCopy newerCopy []) hmatching
  obtain ⟨hof, hdeclares⟩ := Store.verify_eq_ok_iff.1 hverify
  obtain ⟨hof', hdeclares'⟩ := Store.verify_eq_ok_iff.1 hverify'
  refine ⟨fresh_out, hplan, _, _, rfl, rfl, ⟨listed, hall⟩, ⟨listed', hall'⟩, ?_⟩
  refine first_download_shows fresh_out measurable_letter rfl rfl rfl hof hof' hdeclares hdeclares'
    ?_ hall hall'
  intro hsame
  rw [hsame, htoken'] at htoken
  exact absurd htoken (by decide)

end LockPrefetch.Run
