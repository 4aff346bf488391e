import LockPrefetch.Proofs.Planning
import Mathlib.Data.List.Nodup

/-! # What becomes of each entry

Planning looks at one entry of a map after another. A plan speaks of every key but the empty one,
and of each of them once: with a download if the entry resolves to a URL, and among the skipped
keys if not. Both lists are in the order of the map, and each download is the one that is planned
for its entry alone (`Partitions`).

Where there is no plan, the first entry that cannot be planned alone is to blame: planning fails as
it does for this entry alone, and whatever stands behind the entry is not looked at
(`FailsAtFirst`). -/

set_option autoImplicit false

namespace LockPrefetch.Plan

variable {policy : Policy} {map before after : List (String × Package)} {made : Plan}
  {entry other : String × Package} {wanted : Wanted} {key : String} {cause failure : Failure}

/-! ## The task of an entry -/

/-- The entry that a download is asked for by. -/
theorem of_wanted (h : (Task.of entry).wanted? = some wanted) : wanted.package = entry.1 ∧
    entry.1 ≠ "" ∧ entry.2.resolved = some (.url wanted.url) := by
  obtain ⟨name, resolved, integrity⟩ := entry
  rw [Task.of] at h
  split at h
  · cases h
  · rename_i hname
    split at h
    · rename_i url hresolved
      cases h
      exact ⟨rfl, hname, hresolved⟩
    · cases h

/-- The task of an entry that asks for a download. -/
theorem task_of_wanted {task : Task} (h : task.wanted? = some wanted) :
    task = .download wanted := by
  cases task with
  | leaveOut => cases h
  | skip key => cases h
  | download found => rw [Option.some.inj h]

/-- The entry whose key is skipped. -/
theorem of_skipped (h : (Task.of entry).skipped? = some key) : key = entry.1 ∧
    entry.1 ≠ "" ∧ ∀ url, entry.2.resolved ≠ some (.url url) := by
  obtain ⟨name, resolved, integrity⟩ := entry
  rw [Task.of] at h
  split at h
  · cases h
  · rename_i hname
    split at h
    · cases h
    · rename_i hresolved
      cases h
      exact ⟨rfl, hname, hresolved⟩

theorem task_of_url {url : Url} (hkey : entry.1 ≠ "") (hurl : entry.2.resolved = some (.url url)) :
    Task.of entry = .download ⟨entry.1, url, entry.2.integrity⟩ := by
  obtain ⟨name, resolved, integrity⟩ := entry
  obtain rfl : resolved = some (.url url) := hurl
  rw [Task.of, if_neg hkey]

theorem task_of_no_url (hkey : entry.1 ≠ "") (hurl : ∀ url, entry.2.resolved ≠ some (.url url)) :
    Task.of entry = .skip entry.1 := by
  obtain ⟨name, resolved, integrity⟩ := entry
  rw [Task.of, if_neg hkey]
  cases resolved with
  | none => rfl
  | some specifier =>
      cases specifier with
      | url url => exact absurd rfl (hurl url)
      | other text => rfl

/-! ## The keys of a plan -/

/-- The keys that a plan speaks of: those of its downloads, and the skipped ones. -/
def keys (made : Plan) : List String := made.fetches.map PlannedFetch.package ++ made.skipped

/-- What is picked from a list, under keys that it shares with what it was picked for. -/
theorem map_filterMap_of_key {α β γ : Type} {pick : α → Option β} {name : β → γ} {key : α → γ}
    (h : ∀ a b, pick a = some b → name b = key a) (xs : List α) :
    (xs.filterMap pick).map name = (xs.filter fun a => (pick a).isSome).map key := by
  induction xs with
  | nil => rfl
  | cons a rest ih =>
      cases hpick : pick a with
      | none => simp [hpick, ih]
      | some b => simp [hpick, ih, h a b hpick]

/-- The downloads have the keys of the entries that ask for one, in order. -/
theorem fetches_keys (h : (make policy map).result = .ok made) :
    made.fetches.map PlannedFetch.package =
      (map.filter fun entry => (Task.of entry).wanted?.isSome).map Prod.fst := by
  have hplanned := (make_eq_ok_iff.1 h).1
  have hnames : made.fetches.map PlannedFetch.package = (wantedOf map).map Wanted.package := by
    generalize wantedOf map = wanted at hplanned
    generalize made.fetches = fetches at hplanned
    induction hplanned with
    | nil => rfl
    | cons hfirst _ ih => rw [List.map_cons, List.map_cons, ih, (PlannedFetch.plan_ok hfirst).1]
  rw [hnames]
  exact map_filterMap_of_key (fun _ _ hwanted => (of_wanted hwanted).1) map

/-- The skipped keys are those of the entries that are skipped, in order. -/
theorem skipped_keys (h : (make policy map).result = .ok made) :
    made.skipped = (map.filter fun entry => (Task.of entry).skipped?.isSome).map Prod.fst := by
  rw [(make_eq_ok_iff.1 h).2, skippedOf, ← List.map_id (map.filterMap _)]
  exact map_filterMap_of_key (fun _ _ hskipped => (of_skipped hskipped).1) map

/-- A key has a download exactly if an entry under it asks for one. -/
theorem mem_fetches_keys (h : (make policy map).result = .ok made) :
    key ∈ made.fetches.map PlannedFetch.package ↔
      ∃ entry ∈ map, entry.1 = key ∧ key ≠ "" ∧ ∃ url, entry.2.resolved = some (.url url) := by
  rw [fetches_keys h]
  simp only [List.mem_map, List.mem_filter, Option.isSome_iff_exists]
  constructor
  · rintro ⟨entry, ⟨hentry, wanted, hwanted⟩, rfl⟩
    obtain ⟨_, hkey, hurl⟩ := of_wanted hwanted
    exact ⟨entry, hentry, rfl, hkey, wanted.url, hurl⟩
  · rintro ⟨entry, hentry, rfl, hkey, url, hurl⟩
    exact ⟨entry, ⟨hentry, _, by rw [task_of_url hkey hurl, Task.wanted?]⟩, rfl⟩

/-- A key is skipped exactly if an entry under it resolves to no URL. -/
theorem mem_skipped_keys (h : (make policy map).result = .ok made) :
    key ∈ made.skipped ↔
      ∃ entry ∈ map, entry.1 = key ∧ key ≠ "" ∧ ∀ url, entry.2.resolved ≠ some (.url url) := by
  rw [skipped_keys h]
  simp only [List.mem_map, List.mem_filter, Option.isSome_iff_exists]
  constructor
  · rintro ⟨entry, ⟨hentry, found, hskipped⟩, rfl⟩
    obtain ⟨_, hkey, hurl⟩ := of_skipped hskipped
    exact ⟨entry, hentry, rfl, hkey, hurl⟩
  · rintro ⟨entry, hentry, rfl, hkey, hurl⟩
    exact ⟨entry, ⟨hentry, _, by rw [task_of_no_url hkey hurl, Task.skipped?]⟩, rfl⟩

theorem fetches_keys_sublist (h : (make policy map).result = .ok made) :
    (made.fetches.map PlannedFetch.package).Sublist (map.map Prod.fst) := by
  rw [fetches_keys h]
  exact List.filter_sublist.map _

theorem skipped_sublist (h : (make policy map).result = .ok made) :
    made.skipped.Sublist (map.map Prod.fst) := by
  rw [skipped_keys h]
  exact List.filter_sublist.map _

/-- Keys of a map tell its entries apart. -/
theorem eq_of_same_key (hkeys : (map.map Prod.fst).Nodup) (hentry : entry ∈ map)
    (hother : other ∈ map) (hsame : entry.1 = other.1) : entry = other :=
  List.inj_on_of_nodup_map hkeys hentry hother hsame

/-- **No key stands twice in a plan.** -/
theorem nodup_keys (hkeys : (map.map Prod.fst).Nodup) (h : (make policy map).result = .ok made) :
    made.keys.Nodup := by
  have hdisjoint : ∀ key ∈ made.fetches.map PlannedFetch.package, key ∉ made.skipped := by
    intro key hfetch hskip
    obtain ⟨entry, hentry, rfl, _, url, hurl⟩ := (mem_fetches_keys h).1 hfetch
    obtain ⟨other, hother, hsame, _, hnone⟩ := (mem_skipped_keys h).1 hskip
    -- the two entries are the same, and it resolves to a URL or it does not
    obtain rfl := eq_of_same_key hkeys hother hentry hsame
    exact hnone url hurl
  rw [keys, List.nodup_append]
  refine ⟨(fetches_keys_sublist h).nodup hkeys, (skipped_sublist h).nodup hkeys, ?_⟩
  rintro first hfirst second hsecond rfl
  exact hdisjoint first hfirst hsecond

/-- A plan speaks of the keys of the map, but for the empty one. -/
theorem mem_keys_iff (h : (make policy map).result = .ok made) :
    key ∈ made.keys ↔ key ≠ "" ∧ key ∈ map.map Prod.fst := by
  rw [keys, List.mem_append, mem_fetches_keys h, mem_skipped_keys h, List.mem_map]
  constructor
  · rintro (⟨entry, hentry, rfl, hkey, _⟩ | ⟨entry, hentry, rfl, hkey, _⟩)
    · exact ⟨hkey, entry, hentry, rfl⟩
    · exact ⟨hkey, entry, hentry, rfl⟩
  · rintro ⟨hkey, entry, hentry, rfl⟩
    by_cases hurl : ∃ url, entry.2.resolved = some (.url url)
    · exact Or.inl ⟨entry, hentry, rfl, hkey, hurl⟩
    · exact Or.inr ⟨entry, hentry, rfl, hkey, not_exists.1 hurl⟩

/-! ## Entries that are planned alone -/

/-- The plan of a single entry that asks for a download. -/
theorem make_download {fetch : PlannedFetch} (htask : Task.of entry = .download wanted)
    (hplan : (wanted.plan policy).result = .ok fetch) :
    (make policy [entry]).result = .ok ⟨[fetch], []⟩ := by
  simp only [make_cons, htask]
  cases hresult : wanted.plan policy with
  | mk result warnings =>
      rw [hresult] at hplan
      obtain rfl : result = .ok fetch := hplan
      rfl

/-- **A download of a plan** is the one that is planned for its entry alone. -/
theorem fetch_alone {fetch : PlannedFetch} (h : (make policy map).result = .ok made)
    (hfetch : fetch ∈ made.fetches) : ∃ package, (fetch.package, package) ∈ map ∧
      (make policy [(fetch.package, package)]).result = .ok ⟨[fetch], []⟩ := by
  obtain ⟨wanted, hmem, hplan⟩ := exists_of_mem_right (make_eq_ok_iff.1 h).1 hfetch
  obtain ⟨⟨name, package⟩, hentry, hwanted⟩ := List.mem_filterMap.1 hmem
  have hname : fetch.package = name := by
    calc fetch.package = wanted.package := (PlannedFetch.plan_ok hplan).1
      _ = name := (of_wanted hwanted).1
  rw [hname]
  exact ⟨package, hentry, make_download (task_of_wanted hwanted) hplan⟩

/-- An entry that is not refused can be planned alone. -/
theorem make_alone_of_accepted (h : ∀ cause, ¬ Refuses policy entry cause) :
    ∃ alone, (make policy [entry]).result = .ok alone := by
  obtain ⟨extend, hmake⟩ := make_of_not_refuses h []
  exact ⟨extend ⟨[], []⟩, hmake⟩

/-- Behind an entry that is refused nothing is looked at. -/
theorem make_append_of_refuses (h : Refuses policy entry cause)
    (before after rest : List (String × Package)) :
    make policy (before ++ entry :: rest) = make policy (before ++ entry :: after) := by
  induction before with
  | nil =>
      obtain ⟨hkey, url, hurl, hplan⟩ := h
      simp only [List.nil_append, make_cons, task_of_url hkey hurl]
      rw [Wanted.plan]
      cases hresult : PlannedFetch.plan policy entry.1 url entry.2.integrity with
      | mk result warnings =>
          rw [hresult] at hplan
          obtain rfl : result = .error cause := hplan
          rfl
  | cons first before ih => rw [List.cons_append, List.cons_append, make_cons, make_cons, ih]

/-! ## Main statement -/

/-- **A plan partitions a map**, in order and entry by entry. -/
structure Partitions (policy : Policy) (map : List (String × Package)) (made : Plan) : Prop where
  /-- Every key but the empty one stands in the plan once, with a download or skipped. -/
  once : ∀ key ∈ map.map Prod.fst, key ≠ "" → made.keys.count key = 1
  /-- No other key stands in it. -/
  known : ∀ key ∈ made.keys, key ≠ "" ∧ key ∈ map.map Prod.fst
  /-- The downloads are in the order of the map. -/
  fetches : (made.fetches.map PlannedFetch.package).Sublist (map.map Prod.fst)
  /-- The skipped keys are in the order of the map. -/
  skipped : made.skipped.Sublist (map.map Prod.fst)
  /-- Those entries are downloaded that resolve to a URL. -/
  downloaded : ∀ entry ∈ map, entry.1 ≠ "" → (entry.1 ∈ made.fetches.map PlannedFetch.package ↔
    ∃ url, entry.2.resolved = some (.url url))
  /-- Each download is the one that is planned for its entry alone. -/
  alone : ∀ fetch ∈ made.fetches, ∃ package, (fetch.package, package) ∈ map ∧
    (make policy [(fetch.package, package)]).result = .ok ⟨[fetch], []⟩
  /-- It is stored under the key of its URL. -/
  cacheKey : ∀ fetch ∈ made.fetches,
    fetch.cacheKey = PlannedFetch.cacheNamespace ++ ":" ++ fetch.url

/-- **Planning fails at the first entry** that cannot be planned alone, as it does for this entry
alone. The report names the key of the entry, and the entries behind it make no difference. -/
def FailsAtFirst (policy : Policy) (map : List (String × Package)) (failure : Failure) : Prop :=
  ∃ before entry after, map = before ++ entry :: after ∧
    (∀ earlier ∈ before, ∃ alone, (make policy [earlier]).result = .ok alone) ∧
    (make policy [entry]).result = .error failure ∧
    (∃ report, failure = .diagnosed report ∧
      Ordered.get? "package" report.context = some entry.1) ∧
    ∀ rest, make policy (before ++ entry :: rest) = make policy map

/-- The URLs of a map can be split. -/
def Splits (map : List (String × Package)) : Prop :=
  ∀ entry ∈ map, ∀ url, entry.2.resolved = some (.url url) → ∃ parts, url.parts = .ok parts

theorem partitions_of_make (hkeys : (map.map Prod.fst).Nodup)
    (h : (make policy map).result = .ok made) : Partitions policy map made where
  once key hkey hne :=
    List.count_eq_one_of_mem (nodup_keys hkeys h) ((mem_keys_iff h).2 ⟨hne, hkey⟩)
  known key hkey := (mem_keys_iff h).1 hkey
  fetches := fetches_keys_sublist h
  skipped := skipped_sublist h
  downloaded entry hentry hne := by
    rw [mem_fetches_keys h]
    constructor
    · rintro ⟨other, hother, hsame, _, hurl⟩
      obtain rfl := eq_of_same_key hkeys hother hentry hsame
      exact hurl
    · exact fun hurl => ⟨entry, hentry, rfl, hne, hurl⟩
  alone fetch hfetch := fetch_alone h hfetch
  cacheKey fetch hfetch := by
    obtain ⟨_, _, _, _, hplan⟩ := planned_of_mem h hfetch
    exact (PlannedFetch.plan_ok hplan).2.cacheKey

/-- A refusal of an entry whose URL can be split is reported under the key of the entry. -/
theorem reported_of_refuses (hsplits : Splits map) (hentry : entry ∈ map)
    (h : Refuses policy entry cause) :
    ∃ report, cause.attach [("package", entry.1)] = .diagnosed report ∧
      Ordered.get? "package" report.context = some entry.1 := by
  obtain ⟨_, url, hurl, hplan⟩ := h
  obtain ⟨parts, hparts⟩ := hsplits entry hentry url hurl
  obtain ⟨report, rfl, hconcerns⟩ := PlannedFetch.plan_error hparts hplan
  refine ⟨report.attach [("package", entry.1)], rfl, ?_⟩
  rw [Diagnostic.get?_attach, hconcerns]

theorem failsAtFirst_of_make (hsplits : Splits map)
    (h : (make policy map).result = .error failure) : FailsAtFirst policy map failure := by
  obtain ⟨before, entry, after, cause, rfl, hbefore, hentry, rfl⟩ := make_eq_error_iff.1 h
  refine ⟨before, entry, after, rfl, ?_, make_of_refuses hentry, ?_, ?_⟩
  · exact fun earlier hearlier => make_alone_of_accepted (hbefore earlier hearlier)
  · exact reported_of_refuses hsplits (List.mem_append_right _ List.mem_cons_self) hentry
  · exact make_append_of_refuses hentry before after

/-- **Planning is done entry by entry**: a plan partitions the map, and planning fails at the first
entry that cannot be planned. -/
theorem entry_by_entry (hkeys : (map.map Prod.fst).Nodup) (hsplits : Splits map)
    (policy : Policy) :
    (∀ made, (make policy map).result = .ok made → Partitions policy map made) ∧
      ∀ failure, (make policy map).result = .error failure → FailsAtFirst policy map failure :=
  ⟨fun _ h => partitions_of_make hkeys h, fun _ h => failsAtFirst_of_make hsplits h⟩

/-! ## A mixed map -/

theorem splits_of_all (h : (map.all fun entry =>
    (entry.2.resolved.bind Specifier.url?).all fun url => url.parts.isOk) = true) : Splits map := by
  intro entry hentry url hurl
  have hsplit := List.all_eq_true.1 h entry hentry
  rw [hurl, Option.bind_some, Specifier.url?, Option.all_some] at hsplit
  cases hparts : url.parts with
  | ok parts => exact ⟨parts, rfl⟩
  | error fault =>
      rw [hparts] at hsplit
      cases hsplit

/-- A package with two digests, the project itself, a package that is not downloaded, and one on a
branch. -/
def mixedMap : List (String × Package) :=
  [("b", ⟨some (.url ⟨"https://r/b"⟩), some "sha1-AAAA sha512-BBBB"⟩),
    ("", ⟨some (.url ⟨"https://r/p"⟩), none⟩),
    ("c", ⟨some (.other "1.0.0"), none⟩),
    ("a", ⟨some (.url ⟨"git+ssh://git@github.com/foo/bar.git#main"⟩), none⟩)]

/-- The plan of these packages. -/
def mixedPlan : Plan :=
  ⟨[⟨"b", "https://r/b", PlannedFetch.keyFor "https://r/b", some "sha512-BBBB"⟩,
      ⟨"a", "https://codeload.github.com/foo/bar/tar.gz/main",
        PlannedFetch.keyFor "https://codeload.github.com/foo/bar/tar.gz/main", none⟩], ["c"]⟩

/-- A package with two digests of which none is preferred, and one behind it. -/
def undecided : List (String × Package) :=
  [("d", ⟨some (.url ⟨"https://r/d"⟩), some "md5-AAAA sha256-BBBB"⟩),
    ("e", ⟨some (.url ⟨"https://r/e"⟩), none⟩)]

/-- The mixed map is partitioned, and with an undecided package behind it planning fails at that
one. -/
theorem entry_by_entry_mixed : ((mixedMap ++ undecided).map Prod.fst).Nodup ∧
    Splits (mixedMap ++ undecided) ∧ Partitions Policy.standard mixedMap mixedPlan ∧
    FailsAtFirst Policy.standard (mixedMap ++ undecided)
      (.diagnosed ((Digest.ambiguous "md5-AAAA sha256-BBBB").attach [("package", "d")])) := by
  have hkeys : ((mixedMap ++ undecided).map Prod.fst).Nodup := by decide
  have hsplits : Splits (mixedMap ++ undecided) := splits_of_all (by decide +kernel)
  have hfirst : (mixedMap.map Prod.fst).Nodup := by decide
  have hfirstSplits : Splits mixedMap := splits_of_all (by decide +kernel)
  refine ⟨hkeys, hsplits, ?_, ?_⟩
  · exact (entry_by_entry hfirst hfirstSplits Policy.standard).1 mixedPlan (by decide +kernel)
  · exact (entry_by_entry hkeys hsplits Policy.standard).2 _ (by decide +kernel)

end LockPrefetch.Plan
