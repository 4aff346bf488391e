import LockPrefetch.Proofs.FileTree.Confined
import LockPrefetch.Proofs.Run.Outcome

/-! # What a lockfile can touch

Whatever a lockfile says and whatever the fetcher answers, the only files that a run changes are
the copy of the lockfile and the files of the store in the output directory, whose names are of
three fixed forms (`OutputNames`). No text of the lockfile gets into these names but the name of
a hash function, in some letter case. -/

set_option autoImplicit false

namespace LockPrefetch

open FileTree (Confined Action)

/-! ## Names -/

namespace Hex

/-- A name of so many lower-case hexadecimal digits. -/
def Spells (length : Nat) (name : String) : Prop :=
  name.toList.length = length ∧ ∀ c ∈ name.toList, ('0' ≤ c ∧ c ≤ '9') ∨ ('a' ≤ c ∧ c ≤ 'f')

theorem digit_lower : ∀ n < 16,
    ('0' ≤ digit n ∧ digit n ≤ '9') ∨ ('a' ≤ digit n ∧ digit n ≤ 'f') := by decide

theorem lower_of_mem_digits {data : Bytes} {c : Char} (h : c ∈ digits data) :
    ('0' ≤ c ∧ c ≤ '9') ∨ ('a' ≤ c ∧ c ≤ 'f') := by
  obtain ⟨b, _, hb⟩ := List.mem_flatMap.1 h
  have := b.toNat_lt
  simp only [List.mem_cons, List.not_mem_nil, or_false] at hb
  rcases hb with rfl | rfl
  · exact digit_lower _ (by omega)
  · exact digit_lower _ (by omega)

/-- A digest is spelled by two pairs of digits and the rest. -/
theorem spells_shards {data : Bytes} (h : 2 ≤ data.length) :
    ∃ first second rest, Cache.shards (encode data) = [first, second, rest] ∧
      Spells 2 first ∧ Spells 2 second ∧ Spells (2 * data.length - 4) rest := by
  have hlength := length_digits data
  refine ⟨_, _, _, rfl, ⟨?_, fun c hc => ?_⟩, ⟨?_, fun c hc => ?_⟩, ⟨?_, fun c hc => ?_⟩⟩
  all_goals simp only [encode, String.toList_ofList] at *
  · rw [List.length_take]
    omega
  · exact lower_of_mem_digits (List.mem_of_mem_take hc)
  · rw [List.length_take, List.length_drop]
    omega
  · exact lower_of_mem_digits (List.mem_of_mem_drop (List.mem_of_mem_take hc))
  · rw [List.length_drop]
    omega
  · exact lower_of_mem_digits (List.mem_of_mem_drop hc)

end Hex

namespace Run

open Store (Put Progress Session Accounts)

/-- **The names of files in an output directory**: the copy of the lockfile, the bucket of a key,
and content under a digest as long as its function yields. -/
inductive OutputNames : List String → Prop
  | lockfile : OutputNames [lockfileName]
  | bucket {first second rest : String} (hfirst : Hex.Spells 2 first)
      (hsecond : Hex.Spells 2 second) (hrest : Hex.Spells 60 rest) :
      OutputNames [storeDirectory, Cache.indexDirectory, first, second, rest]
  | content {name first second rest : String} {a : Hash.Algorithm}
      (hname : name.toList.map Char.toLower = a.name.toList) (hfirst : Hex.Spells 2 first)
      (hsecond : Hex.Spells 2 second) (hrest : Hex.Spells (2 * a.size - 4) rest) :
      OutputNames [storeDirectory, Cache.contentDirectory, name, first, second, rest]

variable {out : Path} {tree after : FileTree} {put : Put} {progress : Progress}
  {session : Session} {digest : Digest}

theorem outputNames_bucket (key : String) :
    OutputNames (storeDirectory :: Cache.bucketNames key) := by
  obtain ⟨first, second, rest, hshards, hfirst, hsecond, hrest⟩ :=
    @Hex.spells_shards (Cache.keyDigest key) (by rw [Cache.length_keyDigest]; omega)
  rw [Cache.length_keyDigest] at hrest
  rw [Cache.bucketNames, Cache.keyHash_eq, hshards]
  exact .bucket hfirst hsecond hrest

/-- Content lies under a supported function only. -/
theorem outputNames_content (h : digest.Supported) :
    OutputNames (storeDirectory :: Cache.contentNames digest) := by
  have hlength := Cache.length_octets h
  obtain ⟨a, hname, hsize⟩ := h
  obtain ⟨first, second, rest, hshards, hfirst, hsecond, hrest⟩ :=
    @Hex.spells_shards digest.octets (by omega)
  rw [hsize] at hrest
  rw [Cache.contentNames, Digest.hex, hshards]
  exact .content (Hash.Algorithm.name_of_ofName? hname) hfirst hsecond hrest

theorem plain_storeDirectory : Path.Plain storeDirectory where
  nonempty := by decide
  noSlash := by decide
  noDot := by decide

theorem join_storeDirectory (out : Path) :
    out.join storeDirectory = ⟨out.anchor, out.names ++ [storeDirectory]⟩ :=
  Path.join_plain plain_storeDirectory out

theorem join_lockfileName (out : Path) :
    out.join lockfileName = ⟨out.anchor, out.names ++ [lockfileName]⟩ :=
  Path.join_name (by decide) (by decide) (by decide) out

theorem straight_storeDirectory {names : List String} (h : ".." ∉ names) :
    ".." ∉ storeDirectory :: names := by
  rw [List.mem_cons]
  rintro (heq | hmem)
  · exact plain_storeDirectory.ne_up heq.symm
  · exact h hmem

/-! ## Changes -/

theorem confined_placeContent (out : Path) (h : digest.Supported) (data : Bytes)
    (tree : FileTree) :
    Confined OutputNames out tree
      ((Store.placeContent ⟨out.join storeDirectory⟩ digest data).run tree).2 := by
  have hroot : (Store.mk (out.join storeDirectory)).root.names = out.names ++ [storeDirectory] := by
    rw [join_storeDirectory]
  rw [Store.placeContent_eq, Store.contentPath_append hroot h, join_storeDirectory]
  exact FileTree.confined_changeBelow (straight_storeDirectory (Cache.straight_contentNames h))
    (by simp) (outputNames_content h) _ tree

theorem confined_appendRecord (out : Path) (key url : String) (digest : Digest) (size : Nat)
    (tree : FileTree) :
    Confined OutputNames out tree
      ((Store.appendRecord ⟨out.join storeDirectory⟩ key url digest size).run tree).2 := by
  have hroot : (Store.mk (out.join storeDirectory)).root.names = out.names ++ [storeDirectory] := by
    rw [join_storeDirectory]
  rw [Store.appendRecord_eq, Store.bucketPath_append hroot, join_storeDirectory]
  exact FileTree.confined_changeBelow (straight_storeDirectory (Cache.straight_bucketNames key))
    (by simp) (outputNames_bucket key) _ tree

/-- The copy of a lockfile is the change of one file. -/
theorem copyLockfile_eq (out : Path) (document : Bytes) :
    copyLockfile out document = Action.restating (notCopied (out.join lockfileName))
      (FileTree.changeBelow ⟨out.anchor, out.names ++ [lockfileName]⟩ fun _ => document) := by
  have hparent : Path.parent ⟨out.anchor, out.names ++ [lockfileName]⟩ = out := by
    rw [Path.parent, List.dropLast_concat]
  unfold copyLockfile FileTree.changeBelow FileTree.writeFile
  rw [hparent]
  dsimp only
  rw [join_lockfileName]

theorem confined_copyLockfile (out : Path) (document : Bytes) (tree : FileTree) :
    Confined OutputNames out tree ((copyLockfile out document).run tree).2 := by
  rw [copyLockfile_eq]
  exact FileTree.confined_changeBelow (by decide) (by simp) .lockfile _ tree

/-! ## Runs -/

/-- **A step of a put is confined.** -/
theorem confined_step (haccounts : Accounts put progress) (out : Path) (tree : FileTree) :
    Confined OutputNames out tree (put.step ⟨out.join storeDirectory⟩ progress tree).2 := by
  rcases put.tree_step ⟨out.join storeDirectory⟩ progress tree with
    hsame | ⟨digest, rfl, hplaced⟩ | ⟨digest, rfl, hadded⟩
  · rw [hsame]
    exact Confined.refl _ _ tree
  · rw [hplaced]
    exact confined_placeContent out (Store.verify_eq_ok_iff.1 haccounts).1.supported put.data tree
  · rw [hadded]
    exact confined_appendRecord out put.key put.url digest put.data.length tree

/-- **A crew is confined**, at any time. -/
theorem confined_crew (out : Path) (fetchers : Fetchers) (fetches : List PlannedFetch)
    (schedule : List Turn) (tree : FileTree) :
    Confined OutputNames out tree
      ((Crew.start fetches tree).run ⟨out.join storeDirectory⟩ fetchers schedule).tree :=
  related_crew (Confined.refl _ _) Confined.trans
    (fun _ _ tree haccounts => confined_step haccounts out tree) fetchers fetches schedule tree

theorem confined_packagesBy {policy : Policy} {fetchers : Fetchers} {version : Option Int}
    {map : List (String × Package)} {schedule : List Turn} {run : Run Report}
    (h : packagesBy ⟨out.join storeDirectory⟩ policy fetchers version map schedule tree =
      some run) : Confined OutputNames out tree run.tree := by
  cases hplan : (Plan.make policy map).result with
  | error failure =>
      rw [packagesBy_error hplan] at h
      cases h
      exact Confined.refl _ _ tree
  | ok plan =>
      rw [packagesBy_eq hplan] at h
      obtain ⟨fetched, hended, rfl⟩ := Option.map_eq_some_iff.1 h
      have hcrew := confined_crew out fetchers plan.fetches schedule tree
      rw [← (Crew.ended?_eq_some hended).2.1] at hcrew
      exact hcrew

theorem confined_closing {first : LogRecord} {document : Bytes} {run : Run Report}
    (h : Confined OutputNames out tree run.tree) :
    Confined OutputNames out tree (closing first out document run).tree := by
  unfold closing
  cases run.outcome with
  | error failure => exact h
  | ok report => exact h.trans (confined_copyLockfile out document run.tree)

theorem confined_lockfileBy {path out : String} {policy : Policy} {fetchers : Fetchers}
    {schedule : List Turn} {run : Run Report}
    (h : lockfileBy path out policy fetchers schedule tree = some run) :
    Confined OutputNames (Path.ofString out) tree run.tree := by
  unfold lockfileBy at h
  cases hread : Lockfile.read tree (Path.ofString path) with
  | error failure =>
      simp only [hread, Option.some.injEq] at h
      rw [← h]
      exact Confined.refl _ _ tree
  | ok found =>
      obtain ⟨document, lock⟩ := found
      simp only [hread] at h
      cases hnormal : lock.normalize with
      | error failure =>
          simp only [hnormal, Option.some.injEq] at h
          rw [← h]
          exact Confined.refl _ _ tree
      | ok map =>
          simp only [hnormal] at h
          obtain ⟨fetched, hpackages, rfl⟩ := Option.map_eq_some_iff.1 h
          exact confined_closing (confined_packagesBy hpackages)

/-- **A lockfile touches nothing but its output.** Whatever stands in the tree, the lockfile
included, whatever the policy and whatever the fetcher answers: a run on a lockfile changes no
file but those that are named as an output is, below where the output directory leads; nothing
is removed, and directories are all that is made elsewhere. This holds for the run with a crew,
for every schedule, and for the run without one; each may return or fail. -/
theorem files_of_lockfile (path out : String) (policy : Policy) (tree : FileTree) :
    (∀ fetcher, Confined OutputNames (Path.ofString out) tree
      (lockfile path out policy fetcher tree).tree) ∧
    ∀ fetchers schedule run, lockfileBy path out policy fetchers schedule tree = some run →
      Confined OutputNames (Path.ofString out) tree run.tree := by
  refine ⟨fun fetcher => ?_, fun fetchers schedule run hrun => confined_lockfileBy hrun⟩
  obtain ⟨schedule, hrun⟩ := lockfile_inTurn path out policy fetcher tree
  exact confined_lockfileBy hrun

/-- A lockfile whose only package declares a digest under a path. -/
def hostileDocument : String :=
  "\x7b\"lockfileVersion\": 3, \"packages\": \x7b\"../a\": " ++
    "\x7b\"resolved\": \"https://r/../a\", \"integrity\": \"../../x-AAAA\"\x7d\x7d\x7d"

/-- A working directory that holds nothing but a lockfile. -/
def treeWith (document : Bytes) : FileTree :=
  ⟨[([""], .directory), (["", lockfileName], .file document)], [""]⟩

/-- The fetcher is asked for the package, whose content then has no digest to match. -/
theorem files_of_lockfile_hostile :
    ∃ schedule run, lockfileBy lockfileName "out" Policy.standard (fun _ _ => .ok [98]) schedule
        (treeWith (Encoding.Utf8.encode hostileDocument.toList)) = some run ∧
      run.calls = ["https://r/../a"] ∧ run.outcome.isOk = false ∧
      Confined OutputNames (Path.ofString "out")
        (treeWith (Encoding.Utf8.encode hostileDocument.toList)) run.tree := by
  obtain ⟨schedule, hrun⟩ := lockfile_inTurn lockfileName "out" Policy.standard
    (fun _ => .ok [98]) (treeWith (Encoding.Utf8.encode hostileDocument.toList))
  obtain ⟨_, hconfined⟩ := files_of_lockfile lockfileName "out" Policy.standard
    (treeWith (Encoding.Utf8.encode hostileDocument.toList))
  exact ⟨schedule, _, hrun, by decide +kernel, by decide +kernel, hconfined _ schedule _ hrun⟩

end Run

end LockPrefetch
