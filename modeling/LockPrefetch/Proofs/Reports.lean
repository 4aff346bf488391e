import LockPrefetch.Proofs.Json.Sorting
import LockPrefetch.Proofs.Plan.Partition
import LockPrefetch.Proofs.Run.Outcome
import LockPrefetch.Proofs.Sorting
import LockPrefetch.Report

/-! # Reports are stable and faithful

Written out, a report says neither more nor less than what it holds, but for the order of its
lists (`Report.stable_and_faithful`). As JSON it is read as one document, whose packages are in
the order of their keys and whose skipped keys are in order (`read_toJson`), and a document tells
what it is made of (`document_inj`).

Packages can be put into one order only if their keys are different. In the report of a run they
are (`distinct_of_run`). -/

set_option autoImplicit false

namespace LockPrefetch

/-! ## What is read -/

/-- A fetched package as it is read, with its members in order. -/
def FetchedPackage.member (p : FetchedPackage) : Json.Value :=
  .object [("integrity", .string p.integrity), ("package", .string p.package),
    ("size", .integer p.size), ("url", .string p.url)]

theorem FetchedPackage.sorted_toJson (p : FetchedPackage) : p.toJson.sorted = p.member := by
  simp [toJson, member, Json.Value.sorted, Json.Value.sortedMembers, Json.Value.byName,
    List.mergeSort, List.MergeSort.Internal.splitInTwo]

theorem FetchedPackage.member_injective : Function.Injective FetchedPackage.member := by
  rintro ⟨package, url, integrity, size⟩ ⟨package', url', integrity', size'⟩ h
  simp only [member, Json.Value.object.injEq, List.cons.injEq, Prod.mk.injEq,
    Json.Value.string.injEq, Json.Value.integer.injEq, true_and, and_true] at h
  obtain ⟨rfl, rfl, rfl, rfl⟩ := h
  rfl

namespace Report

variable {report other : Report} {policy : Policy} {map : List (String × Package)} {plan : Plan}
  {fetchers : Run.Fetchers} {jobs : List Run.Job} {run : Run Report}

/-- A version as it is read. -/
def version (lockfileVersion : Option Int) : Json.Value :=
  (lockfileVersion.map Json.Value.integer).getD .null

theorem version_injective : Function.Injective version := by
  rintro (_ | n) (_ | m) h
  · rfl
  · cases h
  · cases h
  · cases h
    rfl

/-- **The document** of versions, packages and skipped keys, with its members in order. -/
def document (schemaVersion : Int) (lockfileVersion : Option Int)
    (packages : List FetchedPackage) (skipped : List String) : Json.Value :=
  .object [("lockfile_version", version lockfileVersion),
    ("packages", .array (packages.map FetchedPackage.member)),
    ("schema_version", .integer schemaVersion),
    ("skipped", .array (skipped.map Json.Value.string))]

/-- A document tells what it is made of. -/
theorem document_inj {schema schema' : Int} {lockfile lockfile' : Option Int}
    {packages packages' : List FetchedPackage} {skipped skipped' : List String}
    (h : document schema lockfile packages skipped =
      document schema' lockfile' packages' skipped') :
    schema = schema' ∧ lockfile = lockfile' ∧ packages = packages' ∧ skipped = skipped' := by
  have hstring : Function.Injective Json.Value.string := fun _ _ => Json.Value.string.inj
  simp only [document, Json.Value.object.injEq, List.cons.injEq, Prod.mk.injEq,
    Json.Value.array.injEq, Json.Value.integer.injEq, true_and, and_true] at h
  obtain ⟨hlockfile, hpackages, hschema, hskipped⟩ := h
  exact ⟨hschema, version_injective hlockfile,
    FetchedPackage.member_injective.list_map hpackages, hstring.list_map hskipped⟩

/-- What is written of a report, with its members in order. -/
theorem sorted_payload (report : Report) : report.payload.sorted =
    document report.schemaVersion report.lockfileVersion report.sortedPackages
      report.sortedSkipped := by
  have hpackages : Json.Value.sortedItems (report.sortedPackages.map FetchedPackage.toJson) =
      report.sortedPackages.map FetchedPackage.member := by
    rw [Json.Value.sortedItems_eq_map, List.map_map]
    exact List.map_congr_left fun p _ => p.sorted_toJson
  have hskipped : Json.Value.sortedItems (report.sortedSkipped.map Json.Value.string) =
      report.sortedSkipped.map Json.Value.string := by
    rw [Json.Value.sortedItems_eq_map, List.map_map]
    rfl
  have hversion : ((report.lockfileVersion.map Json.Value.integer).getD .null).sorted =
      version report.lockfileVersion := by
    cases report.lockfileVersion <;> rfl
  simp [payload, document, Json.Value.sorted, Json.Value.sortedMembers, Json.Value.byName,
    List.mergeSort, List.MergeSort.Internal.splitInTwo, hpackages, hskipped, hversion]

/-! ## Reading a report -/

/-- The numbers of a report have at most 4300 digits. -/
structure Sized (report : Report) : Prop where
  schemaVersion : Json.Sized report.schemaVersion
  lockfileVersion : ∀ version ∈ report.lockfileVersion, Json.Sized version
  size : ∀ p ∈ report.packages, Json.Sized p.size

theorem plain_toJson {p : FetchedPackage} (h : Json.Sized p.size) : p.toJson.Plain := by
  refine ⟨by simp, Json.Value.plainMembers_iff.2 ?_⟩
  simpa using ⟨trivial, trivial, trivial, h⟩

theorem plain_payload (h : report.Sized) : report.payload.Plain := by
  have hversion : ((report.lockfileVersion.map Json.Value.integer).getD .null).Plain := by
    cases hlockfile : report.lockfileVersion with
    | none => trivial
    | some version => exact h.lockfileVersion version hlockfile
  refine ⟨by simp, h.schemaVersion, hversion, ?_, ?_, trivial⟩
  · refine Json.Value.plainItems_iff.2 fun item hitem => ?_
    obtain ⟨p, hp, rfl⟩ := List.mem_map.1 hitem
    exact plain_toJson (h.size p ((List.mergeSort_perm _ _).mem_iff.1 hp))
  · refine Json.Value.plainItems_iff.2 fun item hitem => ?_
    obtain ⟨key, _, rfl⟩ := List.mem_map.1 hitem
    trivial

/-- **A report is read back** as a document with its lists sorted. -/
theorem read_toJson (h : report.Sized) : Json.read report.toJson.toList =
    .ok (document report.schemaVersion report.lockfileVersion report.sortedPackages
      report.sortedSkipped) := by
  have hread := Json.Value.read_sorted Json.Layout.regular_indented (plain_payload h)
    ['\n'] (by simp [Json.isGap])
  rw [toJson, String.toList_append, ← sorted_payload]
  exact hread

/-! ## The order of the lists -/

/-- Package keys are all different. -/
def Distinct (report : Report) : Prop := (report.packages.map FetchedPackage.package).Nodup

/-- **Two reports agree** but for the order of packages and of skipped keys. -/
structure Agrees (report other : Report) : Prop where
  schemaVersion : report.schemaVersion = other.schemaVersion
  lockfileVersion : report.lockfileVersion = other.lockfileVersion
  packages : report.packages.Perm other.packages
  skipped : report.skipped.Perm other.skipped

theorem sortedPackages_perm (report : Report) : report.sortedPackages.Perm report.packages :=
  List.mergeSort_perm _ _

theorem sortedSkipped_perm (report : Report) : report.sortedSkipped.Perm report.skipped :=
  List.mergeSort_perm _ _

theorem sortedPackages_increasing (h : report.Distinct) :
    report.sortedPackages.Pairwise fun a b => a.package < b.package := by
  have hkeys : (report.sortedPackages.map FetchedPackage.package).Nodup :=
    (report.sortedPackages_perm.map _).nodup_iff.2 h
  exact Sorting.increasing_of_nodup hkeys
    (Sorting.pairwise_sort FetchedPackage.package report.packages)

/-- **Order makes no difference** to what is written. -/
theorem Agrees.payload_eq (h : report.Agrees other) (hkeys : report.Distinct) :
    report.payload = other.payload := by
  have hpackages : report.sortedPackages = other.sortedPackages :=
    Sorting.sort_eq_of_perm (Sorting.telling_of_nodup hkeys) h.packages
  have hskipped : report.sortedSkipped = other.sortedSkipped :=
    Sorting.sort_eq_of_perm (Sorting.telling_id report.skipped) h.skipped
  rw [payload, payload, h.schemaVersion, h.lockfileVersion, hpackages, hskipped]

/-- **Reports of the same text agree.** -/
theorem agrees_of_toJson_eq (hsized : report.Sized) (hother : other.Sized)
    (h : report.toJson = other.toJson) : report.Agrees other := by
  have hread := read_toJson hsized
  rw [h, read_toJson hother, Except.ok.injEq] at hread
  obtain ⟨hschema, hlockfile, hpackages, hskipped⟩ := document_inj hread.symm
  -- what is sorted is the same, and each list is a rearrangement of what is sorted
  refine ⟨hschema, hlockfile, ?_, ?_⟩
  · calc
      List.Perm report.packages report.sortedPackages := report.sortedPackages_perm.symm
      _ = other.sortedPackages := hpackages
      List.Perm _ other.packages := other.sortedPackages_perm
  · calc
      List.Perm report.skipped report.sortedSkipped := report.sortedSkipped_perm.symm
      _ = other.sortedSkipped := hskipped
      List.Perm _ other.skipped := other.sortedSkipped_perm

/-! ## Main statement -/

/-- **A report is written out faithfully**, whatever the order of its lists. -/
structure Faithful (report : Report) : Prop where
  /-- Reports that agree with it have the same text, and the same is made CBOR of. -/
  stable : ∀ other, report.Agrees other →
    report.toJson = other.toJson ∧ report.payload = other.payload
  /-- It is read as the document of its versions, of its packages in the order of their keys, and
  of its skipped keys in order. -/
  decoded : ∃ packages skipped, packages.Perm report.packages ∧
    packages.Pairwise (fun a b => a.package < b.package) ∧ skipped.Perm report.skipped ∧
    skipped.Pairwise (fun a b => a ≤ b) ∧ Json.read report.toJson.toList =
      .ok (document report.schemaVersion report.lockfileVersion packages skipped)
  /-- Another one has the same text exactly if it agrees with it. -/
  told : ∀ other : Report, other.Sized → (report.toJson = other.toJson ↔ report.Agrees other)

/-- **Reports are stable and faithful**: a report whose packages have different keys and whose
numbers are short enough is written out faithfully. -/
theorem stable_and_faithful (hkeys : report.Distinct) (hsized : report.Sized) :
    Faithful report := by
  have hstable : ∀ other, report.Agrees other → report.toJson = other.toJson ∧
      report.payload = other.payload := by
    intro other hagrees
    have hpayload := hagrees.payload_eq hkeys
    exact ⟨by rw [toJson, toJson, hpayload], hpayload⟩
  refine ⟨hstable, ?_, fun other hother => ?_⟩
  · exact ⟨report.sortedPackages, report.sortedSkipped, report.sortedPackages_perm,
      sortedPackages_increasing hkeys, report.sortedSkipped_perm,
      Sorting.pairwise_sort id report.skipped, read_toJson hsized⟩
  · exact ⟨agrees_of_toJson_eq hsized hother, fun hagrees => (hstable other hagrees).1⟩

/-! ## A report of two packages -/

/-- A report that is not in order, of keys and URLs that have to be escaped. -/
def disordered : Report :=
  ⟨[⟨"node_modules/b\u2028", "https://x/b.tgz", "sha512-b", 2⟩,
      ⟨"node_modules/a\n𝒜", "https://x/\"a\".tgz", "sha1-a", 1⟩],
    ["node_modules/z\u007f", "node_modules/linked"], none, currentSchema⟩

/-- The same report with the order of its lists reversed. -/
def ordered : Report :=
  ⟨disordered.packages.reverse, disordered.skipped.reverse, none, currentSchema⟩

theorem sized_of_digit {n : Nat} (h : n < 10) : Json.Sized n := by
  have hlength : (Text.decimal n).length = 1 := by rw [Text.decimal_of_lt h, List.length_singleton]
  exact hlength.trans_le (by decide)

/-- The report has the same text in either order, and is read as the one that is in order. -/
theorem stable_and_faithful_reversed : disordered.Distinct ∧ disordered.Sized ∧
    Faithful disordered ∧ disordered.toJson = ordered.toJson ∧
    Json.read disordered.toJson.toList =
      .ok (document 1 none ordered.packages ordered.skipped) := by
  have hkeys : disordered.Distinct := by unfold Distinct; decide
  have hsized : disordered.Sized := by
    refine ⟨sized_of_digit (n := 1) (by decide), nofun, ?_⟩
    simp only [disordered, List.forall_mem_cons]
    exact ⟨sized_of_digit (n := 2) (by decide), sized_of_digit (n := 1) (by decide), nofun⟩
  have hfaithful : Faithful disordered := stable_and_faithful hkeys hsized
  have hagrees : disordered.Agrees ordered :=
    ⟨rfl, rfl, (List.reverse_perm _).symm, (List.reverse_perm _).symm⟩
  obtain ⟨packages, skipped, hpackages, hincreasing, hskipped, hrising, hread⟩ := hfaithful.decoded
  -- there is only one order in which a list increases
  have hfirst : packages = ordered.packages :=
    Sorting.eq_of_perm ((Sorting.telling_of_nodup hkeys).perm hpackages)
      (hpackages.trans hagrees.packages) (hincreasing.imp fun hlt => le_of_lt hlt) (by decide)
  have hsecond : skipped = ordered.skipped :=
    Sorting.eq_of_perm (Sorting.telling_id skipped) (hskipped.trans hagrees.skipped) hrising
      (by decide)
  rw [hfirst, hsecond] at hread
  exact ⟨hkeys, hsized, hfaithful, (hfaithful.stable ordered hagrees).1, hread⟩

/-! ## Reports of runs -/

/-- The packages of a report have the keys of the planned downloads, in order. -/
theorem packages_of_run (h : Run.AllOrNothing fetchers plan jobs run)
    (hreport : run.outcome = .ok report) :
    report.packages.map FetchedPackage.package = plan.fetches.map PlannedFetch.package := by
  have hstages := congrArg List.length (h.listed report hreport).2
  have hfetches := congrArg List.length h.fetches
  rw [List.length_map, List.length_map] at hstages
  rw [List.length_map] at hfetches
  refine List.ext_getElem? fun index => ?_
  rw [List.getElem?_map, List.getElem?_map]
  cases hfetch : plan.fetches[index]? with
  | none =>
      have hend : plan.fetches.length ≤ index := List.getElem?_eq_none_iff.1 hfetch
      rw [List.getElem?_eq_none (by omega), Option.map_none, Option.map_none]
  | some fetch =>
      obtain ⟨package, data, digest, hpackage, hreported⟩ :=
        h.reported report hreport index fetch hfetch
      rw [hpackage, Option.map_some, Option.map_some, hreported.reported]

/-- **The packages that a run reports have different keys.** -/
theorem distinct_of_run (hkeys : (map.map Prod.fst).Nodup)
    (hplan : (Plan.make policy map).result = .ok plan)
    (h : Run.AllOrNothing fetchers plan jobs run) (hreport : run.outcome = .ok report) :
    report.Distinct := by
  rw [Distinct, packages_of_run h hreport]
  exact (Plan.fetches_keys_sublist hplan).nodup hkeys

end Report

end LockPrefetch
