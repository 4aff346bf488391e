import LockPrefetch.Proofs.Cache.Serving

/-! # Roots that a store makes

A root that is missing below a directory is made by the first put, and so are the directories
above it. From then on it holds nothing but what the store puts there. The paths of a store are
apart: those of distinct digests and of distinct hashes of keys are distinct, and none leads on
from another one (`FilePath.not_above`).
So no file comes to stand where a directory is needed and no directory where a file is needed
(`Made.unobstructed`), and every put whose content is verified is met, as long as no path is too
long (`Made.run_put_met`). -/

set_option autoImplicit false

namespace LockPrefetch

/-- **One path leads on from another one.** -/
def Path.Above (p q : Path) : Prop := ∃ more, more ≠ [] ∧ q = ⟨p.anchor, p.names ++ more⟩

namespace FileTree

variable {tree : FileTree} {place stop target : Location} {path : Path} {xs ys : List String}

/-- What is missing is admissible. -/
theorem admissible_of_missing (h : tree.lookUp path = .error .noEntry) : Admissible path := by
  refine @admissible_of_locate tree path (fun hlocate => ?_) (fun hlocate => ?_)
  · simp [lookUp, hlocate, bind, Except.bind] at h
  · simp [lookUp, hlocate, bind, Except.bind] at h

/-- A walk that goes on has come to a directory. -/
theorem directory_of_walk (hwalk : tree.walk place (xs ++ ys) = .ok target) (hys : ys ≠ [])
    (hstop : tree.walk place xs = .ok stop) : tree.get? stop = some .directory := by
  rw [walk_append, hstop] at hwalk
  obtain ⟨name, rest, rfl⟩ := List.exists_cons_of_ne_nil hys
  cases hnode : tree.get? stop with
  | none => simp [Except.bind, walk, hnode] at hwalk
  | some node =>
      cases node with
      | file bytes => simp [Except.bind, walk, hnode] at hwalk
      | directory => rfl

/-- Modest names make a path that much longer, and a slash. -/
theorem octets_text_append {anchor : Path.Anchor} {bound : Nat} (hxs : xs ≠ []) (hys : ys ≠ [])
    (hmodest : Modest ys bound) :
    octets (Path.text ⟨anchor, xs ++ ys⟩) ≤ octets (Path.text ⟨anchor, xs⟩) + 1 + bound := by
  have hslash : octets "/" = 1 := by decide
  have hjoined := octets_intercalate_le ys
  have hshort := hmodest.short
  rw [octets_text anchor (by simp [hxs]), octets_text anchor hxs,
    String.intercalate_append_of_ne_nil hxs hys, octets_append, octets_append, hslash]
  omega

/-- A directory lies in a directory. -/
theorem WellFormed.directory_dropLast (h : tree.WellFormed)
    (hplace : tree.get? place = some .directory) : tree.get? place.dropLast = some .directory := by
  by_cases hnil : place = []
  · rw [hnil]
    rfl
  · rw [← List.dropLast_concat_getLast hnil] at hplace
    exact h _ _ _ hplace

end FileTree

namespace Store

open FileTree (octets Admissible)
open Cache (contentNames bucketNames Leaf)

variable {store : Store} {tree : FileTree} {p q : Path} {key url : String} {data : Bytes}
  {declared : Option String} {digest : Digest}

/-! ## Paths of files -/

/-- **The paths of the files** that a store makes. -/
inductive FilePath (store : Store) : Path → Prop
  | content (digest : Digest) (h : digest.Supported) : FilePath store (store.contentPath digest)
  | bucket (key : String) : FilePath store (store.bucketPath key)

/-- The names of such a path behind those of the root. -/
theorem FilePath.exists_leaf (h : store.FilePath p) :
    ∃ names, Leaf names ∧ ".." ∉ names ∧ p = ⟨store.root.anchor, store.root.names ++ names⟩ := by
  cases h with
  | content digest hd =>
      exact ⟨_, .content digest, Cache.straight_contentNames hd, contentPath_eq store hd⟩
  | bucket key => exact ⟨_, .bucket key, Cache.straight_bucketNames key, bucketPath_eq store key⟩

/-- **No path of a file leads on from another one.** -/
theorem FilePath.not_above (hp : store.FilePath p) (hq : store.FilePath q) : ¬ p.Above q := by
  obtain ⟨names, hleaf, _, rfl⟩ := hp.exists_leaf
  obtain ⟨other, hother, _, rfl⟩ := hq.exists_leaf
  rintro ⟨more, hmore, heq⟩
  have hnames : other = names ++ more := by
    have := congrArg Path.names heq
    simp only [List.append_assoc] at this
    exact List.append_cancel_left this
  refine hleaf.not_on_way hother [] ?_
  rw [hnames, List.nil_append, List.nil_append, List.dropLast_append_of_ne_nil hmore]
  exact List.prefix_append _ _

/-- **Digests share a path exactly if they are the same**, the letters of the name included. -/
theorem contentPath_inj {other : Digest} (hd : digest.Supported) (hother : other.Supported) :
    store.contentPath digest = store.contentPath other ↔ digest = other := by
  rw [contentPath_eq store hd, contentPath_eq store hother, ← Cache.contentNames_inj]
  simp

theorem bucketPath_inj {other : String} :
    store.bucketPath key = store.bucketPath other ↔ Cache.keyHash key = Cache.keyHash other := by
  rw [bucketPath_eq, bucketPath_eq, ← Cache.bucketNames_inj]
  simp

theorem contentPath_ne_bucketPath (store : Store) (hd : digest.Supported) (key : String) :
    store.contentPath digest ≠ store.bucketPath key := by
  rw [contentPath_eq store hd, bucketPath_eq]
  simpa using Cache.contentNames_ne_bucketNames digest key

/-! ## New roots -/

/-- **A root that is missing below a directory.** -/
structure New (store : Store) (tree : FileTree) : Prop where
  wellFormed : tree.WellFormed
  above : tree.lookUp store.root.parent = .ok .directory
  missing : tree.lookUp store.root = .error .noEntry

/-- **Nothing is in the way of a root**: behind a directory its names are short, none of them goes
up, and no file stands on the way. They need not be there. -/
structure Accessible (store : Store) (tree : FileTree) (above rest : List String)
    (start : Location) : Prop where
  names : store.root.names = above ++ rest
  straight : ".." ∉ rest
  short : ∀ name ∈ rest, octets name ≤ FileTree.nameLimit
  admissible : Admissible store.root
  rooted : tree.Rooted ⟨store.root.anchor, above⟩ start
  clear : tree.Clear start rest

/-- **A root that is made**, or can be: nothing is in its way, and what it holds is files in their
places. -/
structure Made (store : Store) (tree : FileTree) (above rest : List String) (start : Location) :
    Prop extends store.Accessible tree above rest start where
  placed : store.Placed (start ++ rest) tree

/-- **A new root can be made.** -/
theorem New.made (h : store.New tree) :
    ∃ above name start, store.Made tree above [name] start := by
  have hmissing := h.missing
  have hroot := FileTree.admissible_of_missing hmissing
  by_cases hnil : store.root.names = []
  · -- a path without names is its own parent
    have hsame : store.root.parent = store.root := by
      rw [Path.parent, hnil, List.dropLast_nil, ← hnil]
    rw [← hsame, h.above] at hmissing
    cases hmissing
  obtain ⟨front, name, hnames⟩ : ∃ front name, store.root.names = front ++ [name] :=
    ⟨_, _, (List.dropLast_concat_getLast hnil).symm⟩
  have habove := h.above
  rw [Path.parent, hnames, List.dropLast_concat] at habove
  obtain ⟨start, hstart, hdirectory⟩ := FileTree.lookUp_eq_ok_iff.1 habove
  have hwalk : tree.walk (tree.anchorPlace store.root.anchor) front = .ok start := by
    rw [(FileTree.admissible_of_locate_ok hstart).locate] at hstart
    exact hstart
  have hlocate : tree.locate store.root = tree.walk start [name] := by
    rw [hroot.locate, hnames, FileTree.walk_append, hwalk]
    rfl
  simp only [FileTree.lookUp, hlocate, FileTree.walk, hdirectory] at hmissing
  by_cases hup : name = ".."
  · -- going up from a directory leads to a directory
    simp [hup, h.wellFormed.directory_dropLast hdirectory, bind, Except.bind] at hmissing
  by_cases hlong : FileTree.nameLimit < octets name
  · simp [hup, hlong, bind, Except.bind] at hmissing
  have hfresh : store.Fresh (start ++ [name]) tree := by
    refine ⟨h.wellFormed, ⟨front, [name], start, hnames, ?_, hwalk, rfl⟩, ?_⟩
    · exact fun hmem => hup (List.mem_singleton.1 hmem).symm
    · cases hnode : tree.get? (start ++ [name]) with
      | none => rfl
      | some node => simp [hup, hlong, hnode, bind, Except.bind] at hmissing
  have hclear : tree.Clear start [name] := by
    intro before hbefore bytes hfile
    rcases List.prefix_concat_iff.1 (show before <+: [] ++ [name] from hbefore) with rfl | hnil
    · have hvacant := hfresh.vacant
      rw [List.nil_append] at hfile
      rw [hvacant] at hfile
      cases hfile
    · rw [List.prefix_nil.1 hnil, List.append_nil, hdirectory] at hfile
      cases hfile
  exact ⟨front, name, start, ⟨hnames, fun hmem => hup (List.mem_singleton.1 hmem).symm,
    fun other hother => List.mem_singleton.1 hother ▸ Nat.not_lt.1 hlong, hroot,
    ⟨hwalk, hdirectory⟩, hclear⟩, hfresh.vacant_root.placed⟩

namespace Made

variable {above rest names : List String} {start : Location}

/-- It stays so behind a step that keeps the places. -/
theorem mono {after : FileTree} (h : store.Made tree above rest start)
    (horderly : store.Orderly (start ++ rest) tree after) : store.Made after above rest start where
  names := h.names
  straight := h.straight
  short := h.short
  admissible := h.admissible
  rooted := h.rooted.mono horderly.grows
  clear := horderly.clear h.clear
  placed := horderly.placed

/-- **It stays so, whatever the store is asked for.** -/
theorem afterAll (h : store.Made tree above rest start) (operations : List Operation) :
    store.Made (store.afterAll operations tree) above rest start :=
  h.mono (h.placed.afterAll operations)

/-- No name of a file below it goes up. -/
theorem straight_append (h : store.Made tree above rest start) (hstraight : ".." ∉ names) :
    ".." ∉ rest ++ names := by
  rw [List.mem_append]
  rintro (hmem | hmem)
  · exact h.straight hmem
  · exact hstraight hmem

/-- Nothing is in the way of a file whose path is not too long. -/
theorem free (h : store.Made tree above rest start) (hleaf : Leaf names) (hstraight : ".." ∉ names)
    {bound : Nat} (hmodest : FileTree.Modest names bound) (hbound : bound ≤ FileTree.nameLimit)
    (hfits : octets (Path.text ⟨store.root.anchor, store.root.names ++ names⟩) ≤
      FileTree.pathLimit) :
    tree.Free store.root.anchor above start (rest ++ names) := by
  refine h.placed.free hleaf h.clear (h.straight_append hstraight) ?_ ?_
  · intro other hother
    rcases List.mem_append.1 hother with hother | hother
    · exact h.short other hother
    · exact Nat.le_trans (hmodest.octets_le other hother) hbound
  · rw [← List.append_assoc, ← h.names]
    refine ⟨?_, hfits⟩
    rw [List.any_append, h.admissible.noNul, hmodest.noNul]
    rfl

/-- **Nothing but a file is where a file goes, and no file is above it.** -/
theorem unobstructed (h : store.Made tree above rest start) (hp : store.FilePath p) :
    tree.lookUp p ≠ .ok .directory ∧
      ∀ q : Path, q.Above p → ∀ bytes, tree.lookUp q ≠ .ok (.file bytes) := by
  obtain ⟨names, hleaf, hstraight, rfl⟩ := hp.exists_leaf
  constructor
  · intro hlook
    obtain ⟨place, hlocate, hdir⟩ := FileTree.lookUp_eq_ok_iff.1 hlook
    obtain rfl := (h.placed.leads.join hstraight).locate_eq hlocate
    exact h.placed.plain names hleaf hdir
  · rintro q ⟨more, hmore, heq⟩ bytes hlook
    obtain ⟨hanchor, hsplit⟩ := Path.mk.inj heq
    rw [h.names, List.append_assoc] at hsplit
    obtain ⟨place, hlocate, hfile⟩ := FileTree.lookUp_eq_ok_iff.1 hlook
    rw [(FileTree.admissible_of_locate_ok hlocate).locate, ← hanchor] at hlocate
    have hwalk := h.rooted.walk
    simp only at hwalk
    -- the path ends on the way to the root, or goes on from there
    rcases List.append_eq_append_iff.1 hsplit with ⟨mid, hmid, hrest⟩ | ⟨mid, hmid, hrest⟩
    · rw [hmid, FileTree.walk_append, hwalk] at hlocate
      have hway : ".." ∉ mid := by
        intro hmem
        refine h.straight_append hstraight ?_
        rw [hrest]
        exact List.mem_append_left _ hmem
      obtain ⟨rfl, _, _⟩ := (FileTree.walk_eq_ok_iff hway).1 hlocate
      refine h.placed.clear_root hleaf h.clear mid ?_ bytes hfile
      rw [hrest, List.dropLast_append_of_ne_nil hmore]
      exact List.prefix_append _ _
    · have hdir : tree.get? place = some .directory := by
        by_cases hnil : mid = []
        · subst hnil
          rw [List.append_nil] at hmid
          rw [hmid, hlocate] at hwalk
          rw [Except.ok.inj hwalk]
          exact h.rooted.directory
        · rw [hmid] at hwalk
          exact FileTree.directory_of_walk hwalk hnil hlocate
      rw [hdir] at hfile
      cases hfile

end Made

/-! ## Puts -/

/-- **The paths of a put are not too long.** -/
structure Fits (store : Store) (digest : Digest) (key : String) : Prop where
  content : octets (store.contentPath digest).text ≤ FileTree.pathLimit
  bucket : octets (store.bucketPath key).text ≤ FileTree.pathLimit

/-- A root that is short enough takes content of any digest, and records of any key. -/
theorem fits_of_short (hroot : store.root.names ≠ [])
    (hshort : octets store.root.text + 150 ≤ FileTree.pathLimit) (hd : digest.Supported)
    (key : String) : store.Fits digest key where
  content := by
    rw [contentPath_eq store hd]
    exact Nat.le_trans (FileTree.octets_text_append hroot (Cache.contentNames_ne_nil digest)
      (modest_contentNames hd)) hshort
  bucket := by
    rw [bucketPath_eq]
    refine Nat.le_trans (FileTree.octets_text_append hroot (Cache.bucketNames_ne_nil key)
      (modest_bucketNames key)) ?_
    show octets store.root.text + 1 + 76 ≤ FileTree.pathLimit
    omega

namespace Made

variable {above rest : List String} {start : Location}

theorem free_content (h : store.Made tree above rest start) (hd : digest.Supported)
    (hfits : octets (store.contentPath digest).text ≤ FileTree.pathLimit) :
    tree.Free store.root.anchor above start (rest ++ contentNames digest) := by
  rw [contentPath_eq store hd] at hfits
  exact h.free (.content digest) (Cache.straight_contentNames hd) (modest_contentNames hd)
    (by decide) hfits

theorem free_bucket (h : store.Made tree above rest start)
    (hfits : octets (store.bucketPath key).text ≤ FileTree.pathLimit) :
    tree.Free store.root.anchor above start (rest ++ bucketNames key) := by
  rw [bucketPath_eq] at hfits
  exact h.free (.bucket key) (Cache.straight_bucketNames key) (modest_bucketNames key)
    (by decide) hfits

/-- **A put is met whose content is verified**, if its paths are not too long. -/
theorem run_put_met (h : store.Made tree above rest start)
    (hverify : verify key url data declared = .ok digest) (hfits : store.Fits digest key) :
    ∃ after, (store.put key url data declared).run tree = (.ok digest.token, after) := by
  have hd := (verify_eq_ok_iff.1 hverify).1.supported
  exact run_put_clear h.names h.rooted hverify (h.free_content hd hfits.content)
    (h.free_bucket hfits.bucket)

/-- And behind it the next one can be. -/
theorem run_put_made (h : store.Made tree above rest start)
    (hverify : verify key url data declared = .ok digest) (hfits : store.Fits digest key) :
    ∃ after, (store.put key url data declared).run tree = (.ok digest.token, after) ∧
      store.Made after above rest start := by
  obtain ⟨after, hput⟩ := h.run_put_met hverify hfits
  obtain ⟨_, _, hrun, horderly, _⟩ := h.placed.run_put key url data declared
  rw [hput] at hrun
  cases hrun
  exact ⟨after, hput, h.mono horderly⟩

end Made

/-- **A store never blocks itself.** Behind whatever a store below a new root was asked for, every
put is met whose content has the declared digest, or has none declared: the paths of a store are
apart, so that no file stands where a directory is needed and no directory where a file is. -/
theorem never_blocked (h : store.New tree) (operations : List Operation) :
    ((∀ d e : Digest, d.Supported → e.Supported →
        (store.contentPath d = store.contentPath e ↔ d = e)) ∧
      (∀ key other, store.bucketPath key = store.bucketPath other ↔
        Cache.keyHash key = Cache.keyHash other) ∧
      (∀ (d : Digest) (key : String), d.Supported → store.contentPath d ≠ store.bucketPath key) ∧
      ∀ p q, store.FilePath p → store.FilePath q → ¬ p.Above q) ∧
    (∀ p, store.FilePath p → (store.afterAll operations tree).lookUp p ≠ .ok .directory ∧
      ∀ q : Path, q.Above p → ∀ bytes,
        (store.afterAll operations tree).lookUp q ≠ .ok (.file bytes)) ∧
    ∀ (key url : String) (data : Bytes) (declared : Option String) (digest : Digest),
      digest.Of data → Declares declared digest → store.Fits digest key →
        ∃ after, (store.put key url data declared).run (store.afterAll operations tree) =
          (.ok digest.token, after) := by
  obtain ⟨above, name, start, hnew⟩ := h.made
  have hmade := hnew.afterAll operations
  refine ⟨⟨fun d e => contentPath_inj, fun key other => bucketPath_inj, fun d key hd =>
    contentPath_ne_bucketPath store hd key, fun p q => FilePath.not_above⟩, fun p =>
    hmade.unobstructed, ?_⟩
  intro key url data declared digest hof hdeclares hfits
  exact hmade.run_put_met (verify_eq_ok_iff.2 ⟨hof, hdeclares⟩) hfits

/-- Below an empty working directory there is nothing at a relative root. -/
theorem fresh_relative {names : List String} (hstraight : ".." ∉ names) (hne : names ≠ []) :
    (relative names).Fresh ([""] ++ names) FileTree.empty where
  wellFormed := wellFormed_empty
  leads := FileTree.leads_of_straight _ hstraight
  vacant := by
    cases hnode : FileTree.empty.get? ([""] ++ names) with
    | none => rfl
    | some node =>
        have hlength := (get?_empty hnode).2
        have hpos := List.length_pos_iff.2 hne
        rw [List.length_append, List.length_singleton] at hlength
        omega

/-- And nothing is in its way. -/
theorem accessible_relative {names : List String} {bound : Nat} (hstraight : ".." ∉ names)
    (hne : names ≠ []) (hmodest : FileTree.Modest names bound)
    (hbound : bound ≤ FileTree.nameLimit) :
    (relative names).Accessible FileTree.empty [] names [""] where
  names := rfl
  straight := hstraight
  short := fun name hname => Nat.le_trans (hmodest.octets_le name hname) hbound
  admissible := hmodest.admissible (Nat.le_trans hbound (by decide)) hne
  rooted := rooted_empty
  clear := clear_empty names

/-- The root of a single name is new below an empty working directory. -/
theorem new_relative {name : String} (hname : name ≠ "..") {bound : Nat}
    (hmodest : FileTree.Modest [name] bound) (hbound : bound ≤ FileTree.nameLimit) :
    (relative [name]).New FileTree.empty where
  wellFormed := wellFormed_empty
  above := by
    have hlocate : FileTree.empty.locate ⟨.workingDirectory, []⟩ = .ok [""] := by decide
    exact FileTree.lookUp_of_locate hlocate rfl
  missing := by
    have hstraight : ".." ∉ [name] := fun hmem => hname (List.mem_singleton.1 hmem).symm
    have hpath : Admissible (relative [name]).root :=
      hmodest.admissible (Nat.le_trans hbound (by decide)) (by simp)
    refine rooted_empty.lookUp_missing hstraight ?_ hpath rfl (clear_empty [name])
    exact fun other hother => Nat.le_trans (hmodest.octets_le other hother) hbound

/-- The digest that the token `MD5-kutf/uauL+w61xx3dTFXjx==?x` denotes; it is that of `b`. -/
def letterDigest : Digest := ⟨"MD5", Hash.Algorithm.md5.digest [98]⟩

theorem of_letterDigest : letterDigest.Of [98] :=
  ⟨.md5, Hash.Algorithm.ofName?_eq_some_iff.2 (by decide), rfl⟩

/-- The bits that are left over, the letter case of the name and the options say nothing. -/
theorem parse_letterDigest : Digest.parse "MD5-kutf/uauL+w61xx3dTFXjx==?x" = .ok letterDigest := by
  decide +kernel

/-- Behind a put of `a` and a failed one, `b` is stored by its odd token. -/
theorem never_blocked_odd_token :
    (relative ["store"]).New FileTree.empty ∧
      Digest.parse "MD5-kutf/uauL+w61xx3dTFXjx==?x" = .ok letterDigest ∧
      letterDigest.Of [98] ∧ (relative ["store"]).Fits letterDigest "k" ∧
      ∃ after, ((relative ["store"]).put "k" "u" [98]
          (some "MD5-kutf/uauL+w61xx3dTFXjx==?x")).run
        ((relative ["store"]).afterAll
          [.put ⟨"k", "u", [97], none⟩, .put ⟨"k", "u", [97], some "sha1-"⟩] FileTree.empty) =
        (.ok letterDigest.token, after) := by
  have hnew : (relative ["store"]).New FileTree.empty :=
    new_relative (by decide) (show FileTree.Modest ["store"] 6 from ⟨by decide, by decide⟩)
      (by decide)
  have hfits : (relative ["store"]).Fits letterDigest "k" :=
    fits_of_short (by decide) (by decide) of_letterDigest.supported "k"
  exact ⟨hnew, parse_letterDigest, of_letterDigest, hfits,
    (never_blocked hnew _).2.2 "k" "u" [98] _ letterDigest of_letterDigest parse_letterDigest hfits⟩

end Store

end LockPrefetch
