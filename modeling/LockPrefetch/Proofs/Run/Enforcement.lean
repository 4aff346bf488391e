import LockPrefetch.Proofs.Cache.History
import LockPrefetch.Proofs.Cache.Finishing
import LockPrefetch.Proofs.Planning
import LockPrefetch.Run

/-! # What a report vouches for

For each package of a report the store holds what the lockfile declared: the content that was
fetched has the declared digest, reading it by the reported token yields content with this
digest, and there is a record of it under the key of its URL (`Vouched`). This holds if the
downloads are stored one after another, as `Run.packages` does (`vouched_of_packages`), and also
if they are stored at the same time and take turns in any order. -/

set_option autoImplicit false

namespace LockPrefetch

open Store (Put Deposit)

namespace Run

/-! ## Vouching -/

/-- What a download asks the store for once its content is there. -/
def putOf (fetch : PlannedFetch) (data : Bytes) : Put :=
  ⟨fetch.cacheKey, fetch.url, data, fetch.integrity⟩

/-- A put that was made earlier, or for one of the downloads. -/
def Attempted (fetcher : Fetcher) (earlier : List Put) (fetches : List PlannedFetch) (put : Put) :
    Prop :=
  put ∈ earlier ∨ ∃ fetch ∈ fetches, fetcher fetch.url = .ok put.data ∧ put = putOf fetch put.data

/-- **What is vouched for** when a download of a package is reported. -/
structure Vouches (policy : Policy) (fetcher : Fetcher) (store : Store) (attempted : Put → Prop)
    (tree : FileTree) (p : FetchedPackage) (package : Package) (data : Bytes) (digest : Digest) :
    Prop where
  fetched : fetcher p.url = .ok data
  size : p.size = data.length
  integrity : p.integrity = digest.token
  hash : Digest.compute data digest.name = .ok digest
  declared : ∀ field, package.integrity = some field →
    ∃ token, Digest.select field = .ok token ∧ Digest.parse token = .ok digest
  required : policy.requireIntegrity = true → package.integrity.isSome
  content : ∃ found, store.read tree p.integrity = .ok found ∧
    Digest.compute found digest.name = .ok digest ∧
    (found = data ∨ ∃ put, attempted put ∧ put.data = found ∧ found ≠ data ∧
      Store.verify put.key put.url put.data put.declared = .ok digest)
  record : ∃ records, store.entries tree (PlannedFetch.keyFor p.url) = .ok records ∧
    ∃ entry ∈ records, entry.url = some p.url ∧ entry.integrity = some p.integrity ∧
      entry.size = .number p.size

/-- **A reported package is vouched for**: it comes from the map, its URL is the planned one, and
the store holds what was declared. -/
def Vouched (policy : Policy) (fetcher : Fetcher) (map : List (String × Package)) (store : Store)
    (attempted : Put → Prop) (tree : FileTree) (p : FetchedPackage) : Prop :=
  ∃ package url fetch, (p.package, package) ∈ map ∧ package.resolved = some (.url url) ∧
    (PlannedFetch.plan policy p.package url package.integrity).result = .ok fetch ∧
    p.url = fetch.url ∧
    ∃ data digest, Vouches policy fetcher store attempted tree p package data digest

variable {policy : Policy} {fetcher : Fetcher} {map : List (String × Package)} {store : Store}
  {tree after : FileTree} {base : Location} {fetch : PlannedFetch} {fetches : List PlannedFetch}
  {reported : List FetchedPackage} {plan : Plan} {ledger : List Deposit} {p : Deposit}
  {attempted : Put → Prop} {earlier : List Put} {version : Option Int} {report : Report}

/-- A download that was fetched and deposited, and the package that it is reported as. -/
structure Deposited (fetcher : Fetcher) (fetch : PlannedFetch) (p : Deposit)
    (package : FetchedPackage) : Prop where
  fetched : fetcher fetch.url = .ok p.data
  asked : p.toPut = putOf fetch p.data
  reported : package = ⟨fetch.package, fetch.url, p.digest.token, p.data.length⟩

/-- **A download whose deposit is in the ledger is vouched for.** -/
theorem vouched_of_mem (h : store.Holds base (fun p => attempted p.toPut) ledger tree)
    (hp : p ∈ ledger) (hplan : (Plan.make policy map).result = .ok plan)
    (hfetch : fetch ∈ plan.fetches) {reported : FetchedPackage}
    (hdeposited : Deposited fetcher fetch p reported) :
    Vouched policy fetcher map store attempted tree reported := by
  obtain ⟨hdata, hput, rfl⟩ := hdeposited
  obtain ⟨package, url, hmem, hresolved, hplanned⟩ := Plan.planned_of_mem hplan hfetch
  obtain ⟨_, hobeys⟩ := PlannedFetch.plan_ok hplanned
  refine ⟨package, url, fetch, hmem, hresolved, hplanned, rfl, p.data, p.digest, ?_⟩
  have hkey : p.key = PlannedFetch.keyFor fetch.url := by
    rw [hput, putOf, hobeys.cacheKey]
  have hdeclared : p.declared = fetch.integrity := by
    rw [hput, putOf]
  have hurl : p.url = fetch.url := by
    rw [hput, putOf]
  constructor
  · exact hdata
  · rfl
  · rfl
  · exact Digest.compute_eq_ok_iff.2 ⟨rfl, p.of_data⟩
  · intro field hfield
    obtain ⟨token, hselect, htoken⟩ := hobeys.selected field hfield
    have hdeclares := (Store.verify_eq_ok_iff.1 p.verified).2
    rw [hdeclared, htoken] at hdeclares
    exact ⟨token, hselect, hdeclares⟩
  · exact hobeys.required
  · -- what is read was put for this digest, here or elsewhere
    obtain ⟨q, hq, hdigest, hread⟩ := h.read_eq hp
    refine ⟨q.data, hread, Digest.compute_eq_ok_iff.2 ⟨rfl, hdigest ▸ q.of_data⟩, ?_⟩
    by_cases hsame : q.data = p.data
    · exact Or.inl hsame
    · exact Or.inr ⟨q.toPut, hq, rfl, hsame, hdigest ▸ q.verified⟩
  · -- its own record is among those of its key
    refine ⟨_, h.entries_eq (List.ne_nil_of_mem hp) _, p.entry, ?_, ?_, rfl, rfl⟩
    · exact List.mem_map_of_mem (List.mem_filter.2 ⟨hp, by simpa using hkey⟩)
    · rw [Deposit.entry, Cache.Entry.stored, hurl]

/-! ## One download after another -/

/-- A download that is met was fetched and put. -/
theorem fetchOne_ok {package : FetchedPackage}
    (h : (fetchOne store fetcher fetch).run tree = (.ok package, after)) :
    ∃ data token, fetcher fetch.url = .ok data ∧
      (store.put fetch.cacheKey fetch.url data fetch.integrity).run tree = (.ok token, after) ∧
      package = ⟨fetch.package, fetch.url, token, data.length⟩ := by
  unfold fetchOne at h
  rw [FileTree.Action.run_restating, Store.run_bind, FileTree.Action.run_inspect] at h
  cases hdata : fetcher fetch.url with
  | error failure => simp [hdata] at h
  | ok data =>
      simp only [hdata] at h
      rw [Store.run_bind] at h
      rcases hput : (store.put fetch.cacheKey fetch.url data fetch.integrity).run tree with
        ⟨result, last⟩
      rw [hput] at h
      cases result with
      | error failure => simp at h
      | ok token =>
          simp only [FileTree.Action.run_pure, mapError_ok, Prod.mk.injEq,
            Except.ok.injEq] at h
          obtain ⟨rfl, rfl⟩ := h
          exact ⟨data, token, rfl, hput, rfl⟩

/-- A download is met if its content is fetched and put. -/
theorem fetchOne_of_put {data : Bytes} {token : String} (hdata : fetcher fetch.url = .ok data)
    (hput : (store.put fetch.cacheKey fetch.url data fetch.integrity).run tree =
      (.ok token, after)) :
    (fetchOne store fetcher fetch).run tree =
      (.ok ⟨fetch.package, fetch.url, token, data.length⟩, after) := by
  unfold fetchOne
  rw [FileTree.Action.run_restating, Store.run_bind, FileTree.Action.run_inspect, hdata]
  simp only [Store.run_bind, hput, FileTree.Action.run_pure, mapError_ok]

/-- **One download** extends the ledger by its deposit. -/
theorem holds_fetchOne (h : store.Holds base (fun p => attempted p.toPut) ledger tree)
    (hsize : ∀ url data, fetcher url = .ok data → data.Measurable)
    (hattempted : ∀ data, fetcher fetch.url = .ok data → attempted (putOf fetch data))
    {package : FetchedPackage}
    (hrun : (fetchOne store fetcher fetch).run tree = (.ok package, after)) :
    ∃ p, Deposited fetcher fetch p package ∧
      store.Holds base (fun p => attempted p.toPut) (ledger ++ [p]) after := by
  obtain ⟨data, token, hdata, hput, rfl⟩ := fetchOne_ok hrun
  -- the put was met, so that of the two outcomes it has the one with a deposit
  have hoffered : ∀ p : Deposit, p.toPut = putOf fetch data → attempted p.toPut := by
    rintro p hp
    rw [hp]
    exact hattempted data hdata
  have hmade := h.run_put (hsize fetch.url data hdata) hoffered
  dsimp only [putOf] at hmade
  rw [hput] at hmade
  rcases hmade with ⟨failure, _, hfailed, _⟩ | ⟨p, hp, last, hmet, hholds⟩
  · cases hfailed
  · obtain ⟨htoken, rfl⟩ := Prod.mk.inj hmet
    obtain rfl := Except.ok.inj htoken
    obtain rfl : p.data = data := by rw [hp]
    exact ⟨p, ⟨hdata, hp, rfl⟩, hholds⟩

/-- **Downloads one after another** extend the ledger by a deposit for each package. -/
theorem holds_fetchAll (h : store.Holds base (fun p => attempted p.toPut) ledger tree)
    (hsize : ∀ url data, fetcher url = .ok data → data.Measurable)
    (hattempted : ∀ fetch ∈ fetches, ∀ data, fetcher fetch.url = .ok data →
      attempted (putOf fetch data))
    (hrun : (fetchAll store fetcher fetches tree).outcome = .ok reported) :
    ∃ more, store.Holds base (fun p => attempted p.toPut) (ledger ++ more)
        (fetchAll store fetcher fetches tree).tree ∧
      ∀ package ∈ reported, ∃ fetch ∈ fetches, ∃ p ∈ more, Deposited fetcher fetch p package := by
  induction fetches generalizing tree ledger reported with
  | nil =>
      cases hrun
      refine ⟨[], ?_, fun package hpackage => absurd hpackage List.not_mem_nil⟩
      rw [List.append_nil]
      exact h
  | cons fetch rest ih =>
      unfold fetchAll at hrun ⊢
      rcases hone : (fetchOne store fetcher fetch).run tree with ⟨result, mid⟩
      rw [hone] at hrun
      cases result with
      | error failure => cases hrun
      | ok first =>
          simp only at hrun ⊢
          obtain ⟨p, hfirst, hholds⟩ :=
            holds_fetchOne h hsize (hattempted fetch List.mem_cons_self) hone
          cases hlater : (fetchAll store fetcher rest mid).outcome with
          | error failure => simp [hlater, Except.map] at hrun
          | ok others =>
              obtain ⟨more, hmore, hothers⟩ := ih hholds (fun other hother =>
                hattempted other (List.mem_cons_of_mem _ hother)) hlater
              refine ⟨p :: more, ?_, ?_⟩
              · rw [List.append_assoc, List.singleton_append] at hmore
                exact hmore
              · intro package hpackage
                simp only [hlater, Except.map, Except.ok.injEq] at hrun
                subst hrun
                rcases List.mem_cons.1 hpackage with rfl | hpackage
                · exact ⟨fetch, List.mem_cons_self, p, List.mem_cons_self, hfirst⟩
                · obtain ⟨other, hother, q, hq, hrest⟩ := hothers package hpackage
                  exact ⟨other, List.mem_cons_of_mem _ hother, q, List.mem_cons_of_mem _ hq, hrest⟩

/-- What earlier puts leave is a ledger of attempted ones. -/
theorem holds_earlier (h : store.Fresh base tree)
    (hearlier : ∀ put ∈ earlier, put.data.Measurable)
    (hattempted : ∀ put ∈ earlier, attempted put) :
    ∃ ledger, store.Holds base (fun p => attempted p.toPut) ledger
      (store.afterAll (earlier.map .put) tree) := by
  have hmem : ∀ put, Store.Operation.put put ∈ earlier.map .put → put ∈ earlier := by
    intro put hput
    obtain ⟨other, hother, heq⟩ := List.mem_map.1 hput
    cases heq
    exact hother
  exact (h.holds fun p => attempted p.toPut).afterAll (fun put hput => hearlier put (hmem put hput))
    fun p hp => hattempted p.toPut (hmem p.toPut hp)

/-- **A run that returns a report** vouches for each of its packages. -/
theorem vouched_of_packages (h : store.Fresh base tree)
    (hearlier : ∀ put ∈ earlier, put.data.Measurable)
    (hsize : ∀ url data, fetcher url = .ok data → data.Measurable)
    (hrun : (packages store policy fetcher version map
      (store.afterAll (earlier.map .put) tree)).outcome = .ok report) :
    ∃ plan, (Plan.make policy map).result = .ok plan ∧ ∀ p ∈ report.packages,
      Vouched policy fetcher map store (Attempted fetcher earlier plan.fetches)
        (packages store policy fetcher version map
          (store.afterAll (earlier.map .put) tree)).tree p := by
  unfold packages at hrun ⊢
  rcases hmake : Plan.make policy map with ⟨result, warnings⟩
  rw [hmake] at hrun
  cases result with
  | error failure => cases hrun
  | ok plan =>
      simp only at hrun ⊢
      have hplan : (Plan.make policy map).result = .ok plan := by rw [hmake]
      obtain ⟨ledger, hholds⟩ : ∃ ledger, store.Holds base
          (fun p => Attempted fetcher earlier plan.fetches p.toPut) ledger
          (store.afterAll (earlier.map .put) tree) :=
        holds_earlier h hearlier fun _ hput => Or.inl hput
      cases hall : (fetchAll store fetcher plan.fetches
          (store.afterAll (earlier.map .put) tree)).outcome with
      | error failure => simp [hall, Except.map] at hrun
      | ok fetched =>
          obtain ⟨more, hmore, hfetched⟩ := holds_fetchAll hholds hsize
            (fun fetch hfetch data hdata => Or.inr ⟨fetch, hfetch, hdata, rfl⟩) hall
          simp only [hall, Except.map, Except.ok.injEq] at hrun
          subst hrun
          refine ⟨plan, rfl, fun package hpackage => ?_⟩
          obtain ⟨fetch, hfetch, p, hp, hdeposited⟩ := hfetched package hpackage
          exact vouched_of_mem hmore (List.mem_append_right _ hp) hplan hfetch hdeposited

/-! ## Downloads at the same time -/

/-- The puts of a plan whose downloads have been fetched. -/
def putsOf (plan : Plan) (data : PlannedFetch → Bytes) : List Put :=
  plan.fetches.map fun fetch => putOf fetch (data fetch)

theorem attempted_of_mem {data : PlannedFetch → Bytes}
    (hdata : ∀ fetch ∈ plan.fetches, fetcher fetch.url = .ok (data fetch)) :
    ∀ put ∈ earlier ++ putsOf plan data, Attempted fetcher earlier plan.fetches put := by
  intro put hput
  rcases List.mem_append.1 hput with hput | hput
  · exact Or.inl hput
  · obtain ⟨fetch, hfetch, rfl⟩ := List.mem_map.1 hput
    exact Or.inr ⟨fetch, hfetch, hdata fetch hfetch, rfl⟩

theorem Attempted.measurable {put : Put} (h : Attempted fetcher earlier fetches put)
    (hearlier : ∀ put ∈ earlier, put.data.Measurable)
    (hsize : ∀ url data, fetcher url = .ok data → data.Measurable) : put.data.Measurable := by
  rcases h with hput | ⟨fetch, _, hdata, _⟩
  · exact hearlier put hput
  · exact hsize fetch.url put.data hdata

/-- **Downloads that are stored at the same time**: a package is vouched for as soon as its put
has returned, whatever turns the puts take. -/
theorem vouched_of_turns (h : store.Fresh base tree)
    (hearlier : ∀ put ∈ earlier, put.data.Measurable)
    (hsize : ∀ url data, fetcher url = .ok data → data.Measurable)
    (hplan : (Plan.make policy map).result = .ok plan) {data : PlannedFetch → Bytes}
    (hdata : ∀ fetch ∈ plan.fetches, fetcher fetch.url = .ok (data fetch))
    (schedule : List Nat) (hfetch : fetch ∈ plan.fetches) {token : String}
    (hended : (putOf fetch (data fetch), .ended (.ok token)) ∈
      (store.interleaved (earlier ++ putsOf plan data) tree schedule).tasks) :
    Vouched policy fetcher map store (Attempted fetcher earlier plan.fetches)
      (store.interleaved (earlier ++ putsOf plan data) tree schedule).tree
      ⟨fetch.package, fetch.url, token, (data fetch).length⟩ := by
  have hattempted : ∀ put ∈ earlier ++ putsOf plan data,
      Attempted fetcher earlier plan.fetches put := attempted_of_mem hdata
  have hconsistent := (Store.consistent_start h _).run
    (fun put hput => (hattempted put hput).measurable hearlier hsize) schedule
  obtain ⟨ledger, hholds, p, hp, hput, rfl⟩ := hconsistent.mem_ledger hended
  have hpdata : p.data = data fetch := by
    rw [hput, putOf]
  have hfetched : fetcher fetch.url = .ok p.data := by
    rw [hpdata]
    exact hdata fetch hfetch
  rw [← hpdata] at hput ⊢
  exact vouched_of_mem (hholds.imp fun q hq => hattempted q.toPut hq) hp hplan hfetch
    ⟨hfetched, hput, rfl⟩

/-! ## Runs that report -/

/-- **A download that can be stored**: its content is fetched and verified, and its paths are not
too long. -/
def Storable (fetcher : Fetcher) (store : Store) (fetch : PlannedFetch) : Prop :=
  ∃ data digest, fetcher fetch.url = .ok data ∧
    Store.verify fetch.cacheKey fetch.url data fetch.integrity = .ok digest ∧
    store.Fits digest fetch.cacheKey

variable {above rest : List String} {start : Location}

/-- **Downloads that can be stored are all met** where nothing is in the way of the root. -/
theorem fetchAll_met (h : store.Made tree above rest start)
    (hall : ∀ fetch ∈ fetches, Storable fetcher store fetch) :
    ∃ reported, (fetchAll store fetcher fetches tree).outcome = .ok reported ∧
      reported.map FetchedPackage.package = fetches.map PlannedFetch.package := by
  induction fetches generalizing tree with
  | nil => exact ⟨[], rfl, rfl⟩
  | cons fetch more ih =>
      obtain ⟨data, digest, hdata, hverify, hfits⟩ := hall fetch List.mem_cons_self
      obtain ⟨after, hput, hafter⟩ := h.run_put_made hverify hfits
      obtain ⟨reported, hreported, hnames⟩ := ih hafter fun other hother =>
        hall other (List.mem_cons_of_mem _ hother)
      refine ⟨⟨fetch.package, fetch.url, digest.token, data.length⟩ :: reported, ?_, ?_⟩
      · simp only [fetchAll, fetchOne_of_put hdata hput, hreported, Except.map]
      · rw [List.map_cons, List.map_cons, hnames]

/-- **A run whose downloads can be stored returns a report** of all of them. -/
theorem packages_met (h : store.Made tree above rest start)
    (hplan : (Plan.make policy map).result = .ok plan)
    (hall : ∀ fetch ∈ plan.fetches, Storable fetcher store fetch) :
    ∃ report, (packages store policy fetcher version map tree).outcome = .ok report ∧
      report.packages.map FetchedPackage.package = plan.fetches.map PlannedFetch.package := by
  obtain ⟨reported, hreported, hnames⟩ := fetchAll_met h hall
  unfold packages
  rcases hmake : Plan.make policy map with ⟨result, warnings⟩
  rw [hmake] at hplan
  dsimp only at hplan
  subst hplan
  exact ⟨⟨reported, plan.skipped, version, Report.currentSchema⟩,
    by simp only [hreported, Except.map], hnames⟩

/-! ## Reports -/

/-- **What a report vouches for.** The tree comes from earlier puts, each of which returned or
failed, on a store below whose root nothing stood at first. If a run returns a report, each of
its packages is vouched for. The same holds of a package whose put has returned while the puts
of the plan and the earlier ones take turns in any order. -/
theorem vouched_of_run (h : store.Fresh base tree)
    (hearlier : ∀ put ∈ earlier, put.data.Measurable)
    (hsize : ∀ url data, fetcher url = .ok data → data.Measurable) :
    (∀ report, (packages store policy fetcher version map
        (store.afterAll (earlier.map .put) tree)).outcome = .ok report →
      ∃ plan, (Plan.make policy map).result = .ok plan ∧ ∀ p ∈ report.packages,
        Vouched policy fetcher map store (Attempted fetcher earlier plan.fetches)
          (packages store policy fetcher version map
            (store.afterAll (earlier.map .put) tree)).tree p) ∧
    ∀ plan, (Plan.make policy map).result = .ok plan → ∀ data : PlannedFetch → Bytes,
      (∀ fetch ∈ plan.fetches, fetcher fetch.url = .ok (data fetch)) → ∀ schedule,
      ∀ fetch ∈ plan.fetches, ∀ token, (putOf fetch (data fetch), .ended (.ok token)) ∈
        (store.interleaved (earlier ++ putsOf plan data) tree schedule).tasks →
      Vouched policy fetcher map store (Attempted fetcher earlier plan.fetches)
        (store.interleaved (earlier ++ putsOf plan data) tree schedule).tree
        ⟨fetch.package, fetch.url, token, (data fetch).length⟩ :=
  ⟨fun _ hrun => vouched_of_packages h hearlier hsize hrun,
    fun _ hplan _ hdata schedule _ hfetch _ hended =>
      vouched_of_turns h hearlier hsize hplan hdata schedule hfetch hended⟩

/-- A policy that asks every package to declare a digest. -/
def strict : Policy := { Policy.standard with requireIntegrity := true }

/-- The letters that are behind the URLs of packages. -/
def letters : Fetcher := fun url => .ok [if url = "https://r/a" then 97 else 98]

/-- Two packages that declare the digests of their letters, the first one under two functions. -/
def letterMap : List (String × Package) :=
  [("a", ⟨some (.url ⟨"https://r/a"⟩),
      some "sha1-hvfkN/qlp/zhXR3cuerq6jd2Z7g= md5-DMF1ucDxtqgxw5niaXcmYQ=="⟩),
    ("b", ⟨some (.url ⟨"https://r/b"⟩), some "md5-kutf/uauL+w61xx3dTFXjw=="⟩)]

/-- Their downloads. -/
def letterPlan : Plan :=
  ⟨[⟨"a", "https://r/a", PlannedFetch.keyFor "https://r/a",
      some "sha1-hvfkN/qlp/zhXR3cuerq6jd2Z7g="⟩,
    ⟨"b", "https://r/b", PlannedFetch.keyFor "https://r/b",
      some "md5-kutf/uauL+w61xx3dTFXjw=="⟩], []⟩

theorem make_letterMap : (Plan.make strict letterMap).result = .ok letterPlan := by
  decide +kernel

/-- Puts that were made before: one into the bucket of the first package, and one whose content is
not what it is declared to be. -/
def earlierLetters : List Put :=
  [⟨PlannedFetch.keyFor "https://r/a", "https://r/a", [97], some "md5-DMF1ucDxtqgxw5niaXcmYQ=="⟩,
    ⟨PlannedFetch.keyFor "https://r/b", "https://r/b", [97], some "md5-kutf/uauL+w61xx3dTFXjw=="⟩]

/-- The letter that a download asks for. -/
def letterOf (fetch : PlannedFetch) : Bytes := [if fetch.url = "https://r/a" then 97 else 98]

theorem verify_letterPlan : ∀ fetch ∈ letterPlan.fetches, ∃ digest,
    Store.verify fetch.cacheKey fetch.url (letterOf fetch) fetch.integrity = .ok digest := by
  have hfirst : Digest.parse "sha1-hvfkN/qlp/zhXR3cuerq6jd2Z7g=" =
      .ok ⟨"sha1", Hash.Algorithm.sha1.digest [97]⟩ := by decide +kernel
  have hsecond : Digest.parse "md5-kutf/uauL+w61xx3dTFXjw==" =
      .ok ⟨"md5", Hash.Algorithm.md5.digest [98]⟩ := by decide +kernel
  intro fetch hfetch
  simp only [letterPlan, List.mem_cons, List.not_mem_nil, or_false] at hfetch
  rcases hfetch with rfl | rfl
  · exact ⟨_, Store.verify_eq_ok_iff.2 ⟨⟨.sha1, rfl, rfl⟩, hfirst⟩⟩
  · exact ⟨_, Store.verify_eq_ok_iff.2 ⟨⟨.md5, rfl, rfl⟩, hsecond⟩⟩

/-- A run on both packages reports them, and what it reports is vouched for, one download after
another and in turns with the earlier puts. -/
theorem vouched_of_run_letters :
    (Store.relative ["out", "_cacache"]).Fresh ["", "out", "_cacache"] FileTree.empty ∧
      (∀ put ∈ earlierLetters, put.data.Measurable) ∧
      (∀ url data, letters url = .ok data → data.Measurable) ∧
      (Plan.make strict letterMap).result = .ok letterPlan ∧
      (∃ report,
        (packages (Store.relative ["out", "_cacache"]) strict letters none letterMap
          ((Store.relative ["out", "_cacache"]).afterAll (earlierLetters.map .put)
            FileTree.empty)).outcome = .ok report ∧
        report.packages.map FetchedPackage.package = ["a", "b"] ∧
        ∀ p ∈ report.packages, Vouched strict letters letterMap
          (Store.relative ["out", "_cacache"])
          (Attempted letters earlierLetters letterPlan.fetches)
          (packages (Store.relative ["out", "_cacache"]) strict letters none letterMap
            ((Store.relative ["out", "_cacache"]).afterAll (earlierLetters.map .put)
              FileTree.empty)).tree p) ∧
      ∀ fetch ∈ letterPlan.fetches, ∃ token,
        Vouched strict letters letterMap (Store.relative ["out", "_cacache"])
          (Attempted letters earlierLetters letterPlan.fetches)
          ((Store.relative ["out", "_cacache"]).interleaved
            (earlierLetters ++ putsOf letterPlan letterOf) FileTree.empty
            [3, 0, 2, 2, 0, 3, 1, 3, 2, 0, 1, 1]).tree
          ⟨fetch.package, fetch.url, token, (letterOf fetch).length⟩ := by
  have hfresh : (Store.relative ["out", "_cacache"]).Fresh ["", "out", "_cacache"]
      FileTree.empty := Store.fresh_relative (by decide) (by decide)
  have hmodest : FileTree.Modest ["out", "_cacache"] 20 := ⟨by decide, by decide⟩
  have hmade := hfresh.made
    (Store.accessible_relative (by decide) (by decide) hmodest (by decide))
  have hfits : ∀ digest : Digest, digest.Supported → ∀ key,
      (Store.relative ["out", "_cacache"]).Fits digest key := fun digest hd key =>
    Store.fits_of_short (by decide) (by decide) hd key
  have hone : ∀ data : Bytes, data.length = 1 → data.Measurable := fun data hdata =>
    Bytes.measurable_of_lt (by rw [hdata]; decide)
  have hearlier : ∀ put ∈ earlierLetters, put.data.Measurable := by
    have hlength : ∀ put ∈ earlierLetters, put.data.length = 1 := by decide
    exact fun put hput => hone put.data (hlength put hput)
  have hsize : ∀ url data, letters url = .ok data → data.Measurable := by
    intro url data hdata
    cases hdata
    exact hone _ rfl
  have hfetched : ∀ fetch ∈ letterPlan.fetches, letters fetch.url = .ok (letterOf fetch) :=
    fun _ _ => rfl
  obtain ⟨hreports, hturns⟩ := @vouched_of_run strict letters letterMap
    (Store.relative ["out", "_cacache"]) FileTree.empty _ earlierLetters none hfresh hearlier hsize
  refine ⟨hfresh, hearlier, hsize, make_letterMap, ?_, ?_⟩
  · obtain ⟨report, hreport, hnames⟩ := @packages_met strict letters letterMap
      (Store.relative ["out", "_cacache"]) _ _ none _ _ _
      (hmade.afterAll (earlierLetters.map .put)) make_letterMap (by
        intro fetch hfetch
        obtain ⟨digest, hverify⟩ := verify_letterPlan fetch hfetch
        have hd := (Store.verify_eq_ok_iff.1 hverify).1.supported
        exact ⟨_, digest, rfl, hverify, hfits digest hd _⟩)
    obtain ⟨plan, hplan, hvouched⟩ := hreports report hreport
    rw [make_letterMap] at hplan
    cases hplan
    exact ⟨report, hreport, hnames, hvouched⟩
  · intro fetch hfetch
    obtain ⟨digest, hverify⟩ := verify_letterPlan fetch hfetch
    have hcomplete := @Store.complete_of_turns _ _ _ _ _
      (earlierLetters ++ putsOf letterPlan letterOf) hmade
      (fun put _ d hd => hfits d (Store.verify_eq_ok_iff.1 hd).1.supported put.key)
      [3, 0, 2, 2, 0, 3, 1, 3, 2, 0, 1, 1] (by decide)
    refine ⟨digest.token, hturns letterPlan make_letterMap letterOf hfetched _ fetch hfetch _ ?_⟩
    refine hcomplete.ended ?_ hverify
    rw [Store.map_fst_interleaved]
    exact List.mem_append_right _ (List.mem_map_of_mem hfetch)

/-! ## Late roots -/

/-- **Through a root that comes into being late** a package is reported whose content cannot be
read: the put of the first package makes the root, behind which something else stands in the place
of the content of the second one. -/
theorem vouched_of_run_late_root :
    (Store.spoiledTree "_cacache").WellFormed ∧
      (Store.spoiledTree "_cacache").lookUp (Store.late "_cacache").root = .error .noEntry ∧
      (packages (Store.late "_cacache") strict letters none letterMap
          (Store.spoiledTree "_cacache")).outcome.map
        (fun report => report.packages.map FetchedPackage.integrity) =
          .ok ["sha1-hvfkN/qlp/zhXR3cuerq6jd2Z7g=", "md5-kutf/uauL+w61xx3dTFXjw=="] ∧
      ((Store.late "_cacache").read
        (packages (Store.late "_cacache") strict letters none letterMap
          (Store.spoiledTree "_cacache")).tree "md5-kutf/uauL+w61xx3dTFXjw==").isOk = false :=
  ⟨FileTree.wellFormed_of_listed (by decide +kernel), by decide +kernel⟩

end Run

end LockPrefetch
