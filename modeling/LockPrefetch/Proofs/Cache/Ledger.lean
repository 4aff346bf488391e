import LockPrefetch.Proofs.Cache.Storing

/-! # What a store holds

Below a root where nothing stood at first there is what was put there, and nothing else. The
ledger lists the puts that were recorded, in the order of their records, and the invariant
(`Holds`) tells every file from it: each bucket holds the lines of its keys, each content has
the digest that its place spells. Content may also have come from a put that was offered and
whose record is not there, or not yet.

Both changes of a put keep the invariant, whether they are made or refused
(`Holds.run_placeContent`, `Holds.run_appendRecord`, `Holds.run_put`). What is read follows from
it: the entries of a key are those of the ledger (`Holds.entries_eq`), and what they point to
can be read (`Holds.read_eq`). -/

set_option autoImplicit false

namespace LockPrefetch.Store

open FileTree (Admissible)
open Cache (contentNames bucketNames Leaf)

/-! ## Puts -/

/-- What a put is asked to store. -/
structure Put where
  key : String
  url : String
  data : Bytes
  declared : Option String
deriving DecidableEq, Repr

/-- A put whose content was verified, with the digest that it was verified with. -/
structure Deposit extends Put where
  digest : Digest
  verified : verify key url data declared = .ok digest
  measurable : data.Measurable

namespace Deposit

/-- The entry of stored content. -/
def entry (p : Deposit) : Cache.Entry := .stored p.key p.url p.digest.token p.data.length

/-- The text of its record. -/
def payload (p : Deposit) : List Char :=
  Cache.Bucket.payload p.key p.url p.digest.token p.data.length

/-- The octets that its record adds to a bucket. -/
def line (p : Deposit) : Bytes := lineOctets p.key p.url p.digest p.data.length

theorem of_data (p : Deposit) : p.digest.Of p.data := (verify_eq_ok_iff.1 p.verified).1

theorem supported (p : Deposit) : p.digest.Supported := p.of_data.supported

end Deposit

variable {store : Store} {tree after : FileTree} {base : Location} {digest : Digest}
  {key url token : String} {data bytes : Bytes} {declared : Option String}
  {Offered : Deposit → Prop} {ledger : List Deposit} {p q : Deposit}

/-! ## Buckets -/

/-- The deposits of a ledger whose keys share the bucket of a key. -/
def sharing (ledger : List Deposit) (key : String) : List Deposit :=
  ledger.filter fun p => bucketNames p.key = bucketNames key

/-- What the bucket of a key holds according to a ledger. -/
def bucketBytes (ledger : List Deposit) (key : String) : Bytes :=
  (sharing ledger key).flatMap Deposit.line

theorem bucketBytes_congr {other : String} (h : bucketNames key = bucketNames other) :
    bucketBytes ledger key = bucketBytes ledger other := by
  rw [bucketBytes, bucketBytes, sharing, sharing, h]

/-- A further deposit adds its line to its own bucket. -/
theorem bucketBytes_snoc_same (h : bucketNames p.key = bucketNames key) :
    bucketBytes (ledger ++ [p]) key = bucketBytes ledger key ++ p.line := by
  simp [bucketBytes, sharing, h]

theorem bucketBytes_snoc_other (h : bucketNames p.key ≠ bucketNames key) :
    bucketBytes (ledger ++ [p]) key = bucketBytes ledger key := by
  simp [bucketBytes, sharing, h]

/-- The lines of deposits are read as their entries. -/
theorem entriesOf_lines (deposits : List Deposit) (key : String) :
    ∃ text, Encoding.Utf8.decode (deposits.flatMap Deposit.line) = .ok text ∧
      Cache.Bucket.entriesOf key text =
        .ok ((deposits.filter fun p => p.key = key).map Deposit.entry) := by
  -- from the end, as records are added
  induction deposits using List.reverseRecOn with
  | nil => exact ⟨[], rfl, rfl⟩
  | append_singleton deposits p ih =>
      obtain ⟨text, htext, hentries⟩ := ih
      refine ⟨text ++ Cache.Bucket.line p.payload, ?_, ?_⟩
      · rw [List.flatMap_append, List.flatMap_singleton]
        exact Encoding.Utf8.decode_append htext _
      · rw [Deposit.payload, Cache.Bucket.entriesOf_append_line p.measurable.sized hentries]
        by_cases hkey : p.key = key
        · simp [hkey, Deposit.entry]
        · simp [hkey]

/-- **The entries in a bucket are those of the ledger**, in the order of their records. -/
theorem entriesOf_bucketBytes (ledger : List Deposit) (key : String) :
    ∃ text, Encoding.Utf8.decode (bucketBytes ledger key) = .ok text ∧
      Cache.Bucket.entriesOf key text =
        .ok ((ledger.filter fun p => p.key = key).map Deposit.entry) := by
  obtain ⟨text, htext, hentries⟩ := entriesOf_lines (sharing ledger key) key
  refine ⟨text, htext, ?_⟩
  -- a deposit of the key shares its bucket
  have hsame : (sharing ledger key).filter (fun p => p.key = key) =
      ledger.filter fun p => p.key = key := by
    rw [sharing, List.filter_filter]
    refine List.filter_congr fun p _ => ?_
    by_cases hkey : p.key = key
    · simp [hkey]
    · simp [hkey]
  rw [hentries, hsame]

/-! ## The invariant -/

/-- There is content under a digest. -/
def Held (store : Store) (tree : FileTree) (digest : Digest) : Prop :=
  ∃ bytes, tree.readFile (store.contentPath digest) = .ok bytes

/-- No content has gone. -/
def Keeps (store : Store) (tree after : FileTree) : Prop :=
  ∀ digest : Digest, digest.Supported → store.Held tree digest → store.Held after digest

/-- **What stands below the root** of a store that holds a ledger. -/
structure Holds (store : Store) (base : Location) (Offered : Deposit → Prop)
    (ledger : List Deposit) (tree : FileTree) : Prop where
  leads : tree.Leads store.root base
  plain : ∀ names, Leaf names → tree.get? (base ++ names) ≠ some .directory
  files : ∀ names bytes, tree.get? (base ++ names) = some (.file bytes) →
    (∃ p, Offered p ∧ names = contentNames p.digest ∧ bytes = p.data) ∨
    (∃ p ∈ ledger, names = bucketNames p.key ∧ bytes = bucketBytes ledger p.key)
  contents : ∀ p ∈ ledger, store.Held tree p.digest
  buckets : ∀ p ∈ ledger,
    tree.readFile (store.bucketPath p.key) = .ok (bucketBytes ledger p.key)

/-- A tree on which nothing stands where the root of the store leads to. -/
structure Fresh (store : Store) (base : Location) (tree : FileTree) : Prop where
  wellFormed : tree.WellFormed
  leads : tree.Leads store.root base
  vacant : tree.get? base = none

/-- Nothing stands below the root of a fresh store. -/
theorem Fresh.get?_eq_none (h : store.Fresh base tree) (names : List String) :
    tree.get? (base ++ names) = none := by
  by_cases hnames : names = []
  · rw [hnames, List.append_nil, h.vacant]
  · exact h.wellFormed.vacant_below (by rw [h.vacant]; nofun) names hnames

/-- **A fresh store holds the empty ledger.** -/
theorem Fresh.holds (h : store.Fresh base tree) (Offered : Deposit → Prop) :
    store.Holds base Offered [] tree := by
  constructor
  · exact h.leads
  · intro names _ hdir
    rw [h.get?_eq_none] at hdir
    cases hdir
  · intro names bytes hfile
    rw [h.get?_eq_none] at hfile
    cases hfile
  · intro p hp
    exact absurd hp List.not_mem_nil
  · intro p hp
    exact absurd hp List.not_mem_nil

theorem held_iff (h : tree.Leads store.root base) (hd : digest.Supported) :
    store.Held tree digest ↔ tree.locate (store.contentPath digest) =
        .ok (base ++ contentNames digest) ∧
      ∃ bytes, tree.get? (base ++ contentNames digest) = some (.file bytes) := by
  constructor
  · rintro ⟨bytes, hread⟩
    obtain ⟨hlocate, hfile⟩ :=
      (FileTree.readFile_eq_ok_iff (leads_contentPath h hd)).1 hread
    exact ⟨hlocate, bytes, hfile⟩
  · rintro ⟨hlocate, bytes, hfile⟩
    exact ⟨bytes, (FileTree.readFile_eq_ok_iff (leads_contentPath h hd)).2 ⟨hlocate, hfile⟩⟩

/-- Content stays as long as directories and files do. -/
theorem keeps_of_files (h : tree.Leads store.root base) (hgrows : tree.Grows after)
    (hfiles : ∀ place found, tree.get? place = some (.file found) →
      ∃ kept, after.get? place = some (.file kept)) : store.Keeps tree after := by
  intro digest hd hheld
  obtain ⟨hlocate, found, hfile⟩ := (held_iff h hd).1 hheld
  exact (held_iff (h.mono hgrows) hd).2 ⟨hgrows.locate hlocate, hfiles _ found hfile⟩

/-- Content that is seen is held, if no directory stands in its place. -/
theorem held_of_seen (h : tree.Leads store.root base) (hd : digest.Supported)
    (hplain : tree.get? (base ++ contentNames digest) ≠ some .directory)
    (hpresent : store.hasContent tree digest = .ok true) : store.Held tree digest := by
  obtain ⟨place, node, hlocate, hnode⟩ := (hasContent_eq_ok hpresent).1 rfl
  obtain rfl := (leads_contentPath h hd).locate_eq hlocate
  cases node with
  | directory => exact absurd hnode hplain
  | file bytes => exact (held_iff h hd).2 ⟨hlocate, bytes, hnode⟩

/-- Directories on the way to a file are in the place of no other one. -/
theorem plain_of_paved (h : ∀ other, Leaf other → tree.get? (base ++ other) ≠ some .directory)
    {names : List String} (hleaf : Leaf names)
    (hpaved : tree.Paved after (base ++ names).dropLast) :
    ∀ other, Leaf other → after.get? (base ++ other) ≠ some .directory := by
  intro other hother hdir
  rcases hpaved.get?_of_directory hdir with hbefore | hway
  · exact h other hother hbefore
  · exact hother.not_on_way hleaf base hway

/-- Nor are those on the way to a file that is changed. -/
theorem plain_of_filed (h : ∀ other, Leaf other → tree.get? (base ++ other) ≠ some .directory)
    {names : List String} (hleaf : Leaf names)
    (hfiled : tree.Filed after (base ++ names) bytes) :
    ∀ other, Leaf other → after.get? (base ++ other) ≠ some .directory := by
  intro other hother hdir
  rcases hfiled.get?_of_directory hdir with hbefore | hway
  · exact h other hother hbefore
  · exact hother.not_on_way hleaf base hway

namespace Holds

theorem imp {Other : Deposit → Prop} (h : store.Holds base Offered ledger tree)
    (himp : ∀ p, Offered p → Other p) : store.Holds base Other ledger tree := by
  refine ⟨h.leads, h.plain, fun names bytes hfile => ?_, h.contents, h.buckets⟩
  rcases h.files names bytes hfile with ⟨p, hp, hrest⟩ | hbucket
  · exact Or.inl ⟨p, himp p hp, hrest⟩
  · exact Or.inr hbucket

/-- Where the bucket of a recorded key stands. -/
theorem bucket_file (h : store.Holds base Offered ledger tree) (hp : p ∈ ledger) :
    tree.locate (store.bucketPath p.key) = .ok (base ++ bucketNames p.key) ∧
      tree.get? (base ++ bucketNames p.key) = some (.file (bucketBytes ledger p.key)) :=
  (FileTree.readFile_eq_ok_iff (leads_bucketPath h.leads p.key)).1 (h.buckets p hp)

/-- A file in the place of a bucket is the bucket of a recorded key. -/
theorem bucket_of_file (h : store.Holds base Offered ledger tree)
    (hfile : tree.get? (base ++ bucketNames key) = some (.file bytes)) :
    ∃ p ∈ ledger, bucketNames p.key = bucketNames key := by
  rcases h.files _ bytes hfile with ⟨p, _, hnames, _⟩ | ⟨p, hp, hnames, _⟩
  · exact absurd hnames.symm (Cache.contentNames_ne_bucketNames _ _)
  · exact ⟨p, hp, hnames.symm⟩

/-- A file in the place of content is the content of a put with that digest. -/
theorem content_of_file (h : store.Holds base Offered ledger tree)
    (hfile : tree.get? (base ++ contentNames digest) = some (.file bytes)) :
    ∃ p, Offered p ∧ p.digest = digest ∧ bytes = p.data := by
  rcases h.files _ bytes hfile with ⟨p, hp, hnames, hbytes⟩ | ⟨p, _, hnames, _⟩
  · exact ⟨p, hp, (Cache.contentNames_inj.1 hnames).symm, hbytes⟩
  · exact absurd hnames (Cache.contentNames_ne_bucketNames _ _)

/-- Nothing stands in the place of a bucket that no recorded key has. -/
theorem vacant_bucket (h : store.Holds base Offered ledger tree)
    (hshare : ∀ p ∈ ledger, bucketNames p.key ≠ bucketNames key) :
    tree.get? (base ++ bucketNames key) = none := by
  cases hnode : tree.get? (base ++ bucketNames key) with
  | none => rfl
  | some node =>
      cases node with
      | directory => exact absurd hnode (h.plain _ (.bucket key))
      | file bytes =>
          obtain ⟨p, hp, hnames⟩ := h.bucket_of_file hnode
          exact absurd hnames (hshare p hp)

/-! ## What a change keeps -/

/-- **Making directories** on the way to a file changes nothing that is held. -/
theorem pave (h : store.Holds base Offered ledger tree) {names : List String} (hleaf : Leaf names)
    (hpaved : tree.Paved after (base ++ names).dropLast) :
    store.Holds base Offered ledger after ∧ store.Keeps tree after := by
  have hgrows := hpaved.grows
  have hkeeps : store.Keeps tree after := keeps_of_files h.leads hgrows
    fun _ found hfile => ⟨found, hpaved.get?_eq_some hfile⟩
  refine ⟨⟨h.leads.mono hgrows, plain_of_paved h.plain hleaf hpaved, ?_, ?_, ?_⟩, hkeeps⟩
  · intro other bytes hfile
    exact h.files other bytes (hpaved.get?_of_file hfile)
  · intro q hq
    exact hkeeps q.digest q.supported (h.contents q hq)
  · intro q hq
    obtain ⟨hlocate, hfile⟩ := h.bucket_file hq
    exact (FileTree.readFile_eq_ok_iff ((leads_bucketPath h.leads q.key).mono hgrows)).2
      ⟨hgrows.locate hlocate, hpaved.get?_eq_some hfile⟩

/-- **What changes elsewhere** changes nothing that is held. -/
theorem aside (h : store.Holds base Offered ledger tree) (hgrows : tree.Grows after)
    (hsame : ∀ names, after.get? (base ++ names) = tree.get? (base ++ names)) :
    store.Holds base Offered ledger after := by
  refine ⟨h.leads.mono hgrows, ?_, ?_, ?_, ?_⟩
  · intro names hleaf
    rw [hsame]
    exact h.plain names hleaf
  · intro names bytes hfile
    rw [hsame] at hfile
    exact h.files names bytes hfile
  · intro q hq
    obtain ⟨hlocate, bytes, hfile⟩ := (held_iff h.leads q.supported).1 (h.contents q hq)
    exact (held_iff (h.leads.mono hgrows) q.supported).2
      ⟨hgrows.locate hlocate, bytes, by rw [hsame, hfile]⟩
  · intro q hq
    obtain ⟨hlocate, hfile⟩ := h.bucket_file hq
    exact (FileTree.readFile_eq_ok_iff ((leads_bucketPath h.leads q.key).mono hgrows)).2
      ⟨hgrows.locate hlocate, by rw [hsame, hfile]⟩

/-- A bucket that is not the changed file still holds what it did. -/
theorem readFile_of_filed (h : store.Holds base Offered ledger tree) {names : List String}
    (hfiled : tree.Filed after (base ++ names) bytes) (hq : q ∈ ledger)
    (hne : bucketNames q.key ≠ names) :
    after.readFile (store.bucketPath q.key) = .ok (bucketBytes ledger q.key) := by
  obtain ⟨hlocate, hfile⟩ := h.bucket_file hq
  refine (FileTree.readFile_eq_ok_iff ((leads_bucketPath h.leads q.key).mono hfiled.grows)).2
    ⟨hfiled.grows.locate hlocate, hfiled.get?_eq_some ?_ hfile⟩
  exact fun heq => hne (List.append_cancel_left heq)

/-- **Content that is laid down** is held, and the ledger is what it was. -/
theorem lay (h : store.Holds base Offered ledger tree) (hoffered : Offered p)
    (hfiled : tree.Filed after (base ++ contentNames p.digest) p.data) :
    store.Holds base Offered ledger after ∧ store.Keeps tree after := by
  have hkeeps : store.Keeps tree after := keeps_of_files h.leads hfiled.grows
    fun _ _ hfile => hfiled.file_stays hfile
  refine ⟨⟨h.leads.mono hfiled.grows, plain_of_filed h.plain (.content _) hfiled, ?_, ?_, ?_⟩,
    hkeeps⟩
  · intro names bytes hfile
    by_cases hnames : names = contentNames p.digest
    · rw [hnames, hfiled.here] at hfile
      cases hfile
      exact Or.inl ⟨p, hoffered, hnames, rfl⟩
    · have hne : base ++ names ≠ base ++ contentNames p.digest :=
        fun heq => hnames (List.append_cancel_left heq)
      exact h.files names bytes (hfiled.get?_of_file hne hfile)
  · intro q hq
    exact hkeeps q.digest q.supported (h.contents q hq)
  · intro q hq
    exact h.readFile_of_filed hfiled hq (Cache.contentNames_ne_bucketNames _ _).symm

/-- What the place of a bucket holds is what the ledger says. -/
theorem content_bucket (h : store.Holds base Offered ledger tree) (key : String) :
    tree.content (base ++ bucketNames key) = bucketBytes ledger key := by
  by_cases hshare : ∃ p ∈ ledger, bucketNames p.key = bucketNames key
  · obtain ⟨p, hp, hnames⟩ := hshare
    obtain ⟨_, hfile⟩ := h.bucket_file hp
    rw [hnames] at hfile
    rw [FileTree.content_of_get? hfile, bucketBytes_congr hnames]
  · have hnone : sharing ledger key = [] := by
      rw [sharing, List.filter_eq_nil_iff]
      intro p hp
      simpa using fun hnames => hshare ⟨p, hp, hnames⟩
    have hvacant := h.vacant_bucket fun p hp hnames => hshare ⟨p, hp, hnames⟩
    rw [bucketBytes, hnone, FileTree.content, hvacant]
    rfl

/-- **A record that is added** for content that is held extends the ledger. -/
theorem record (h : store.Holds base Offered ledger tree) (hheld : store.Held tree p.digest)
    (hfiled : tree.Filed after (base ++ bucketNames p.key)
      (tree.content (base ++ bucketNames p.key) ++ p.line))
    (hlocate : after.locate (store.bucketPath p.key) = .ok (base ++ bucketNames p.key)) :
    store.Holds base Offered (ledger ++ [p]) after ∧ store.Keeps tree after := by
  have hkeeps : store.Keeps tree after := keeps_of_files h.leads hfiled.grows
    fun _ _ hfile => hfiled.file_stays hfile
  have hleads := h.leads.mono hfiled.grows
  have hplain := plain_of_filed h.plain (.bucket p.key) hfiled
  rw [h.content_bucket, ← bucketBytes_snoc_same rfl] at hfiled
  refine ⟨⟨hleads, hplain, ?_, ?_, ?_⟩, hkeeps⟩
  · -- files: the bucket has one more line, and no other file has changed
    intro names bytes hfile
    by_cases hnames : names = bucketNames p.key
    · rw [hnames, hfiled.here] at hfile
      cases hfile
      exact Or.inr ⟨p, by simp, hnames, rfl⟩
    · have hne : base ++ names ≠ base ++ bucketNames p.key :=
        fun heq => hnames (List.append_cancel_left heq)
      rcases h.files names bytes (hfiled.get?_of_file hne hfile) with
        hcontent | ⟨q, hq, hbucket, hbytes⟩
      · exact Or.inl hcontent
      · refine Or.inr ⟨q, by simp [hq], hbucket, ?_⟩
        rw [hbytes, bucketBytes_snoc_other fun heq => hnames (by rw [hbucket, heq])]
  · intro q hq
    rcases List.mem_append.1 hq with hq | hq
    · exact hkeeps q.digest q.supported (h.contents q hq)
    · obtain rfl := List.mem_singleton.1 hq
      exact hkeeps q.digest q.supported hheld
  · -- buckets: keys of the same bucket read the new line as well
    intro q hq
    by_cases hnames : bucketNames q.key = bucketNames p.key
    · refine (FileTree.readFile_eq_ok_iff (leads_bucketPath hleads q.key)).2 ⟨?_, ?_⟩
      · rw [bucketPath_eq, hnames, ← bucketPath_eq]
        exact hlocate
      · rw [hnames, bucketBytes_congr hnames]
        exact hfiled.here
    · rcases List.mem_append.1 hq with hq | hq
      · rw [bucketBytes_snoc_other fun heq => hnames heq.symm]
        exact h.readFile_of_filed hfiled hq hnames
      · obtain rfl := List.mem_singleton.1 hq
        exact absurd rfl hnames

/-! ## Steps of a put -/

/-- **Laying content down** keeps the ledger, and if it is made, the content is held. -/
theorem run_placeContent (h : store.Holds base Offered ledger tree) (hoffered : Offered p) :
    ∃ result after, (store.placeContent p.digest p.data).run tree = (result, after) ∧
      store.Holds base Offered ledger after ∧ store.Keeps tree after ∧
      (result = .ok () → store.Held after p.digest) := by
  rcases Store.run_placeContent h.leads p.supported p.data with
    ⟨failure, after, hrun, hpaved⟩ | ⟨after, hrun, hfiled, hlocate⟩
  · obtain ⟨hholds, hkeeps⟩ := h.pave (.content p.digest) hpaved
    exact ⟨_, after, hrun, hholds, hkeeps, nofun⟩
  · obtain ⟨hholds, hkeeps⟩ := h.lay hoffered hfiled
    refine ⟨_, after, hrun, hholds, hkeeps, fun _ => ?_⟩
    exact (held_iff hholds.leads p.supported).2 ⟨hlocate, p.data, hfiled.here⟩

/-- **Adding the record** of content that is held extends the ledger if it is made, and keeps it
if it is refused. -/
theorem run_appendRecord (h : store.Holds base Offered ledger tree)
    (hheld : store.Held tree p.digest) :
    (∃ failure after, (store.appendRecord p.key p.url p.digest p.data.length).run tree =
        (.error failure, after) ∧
      store.Holds base Offered ledger after ∧ store.Keeps tree after) ∨
    ∃ after, (store.appendRecord p.key p.url p.digest p.data.length).run tree = (.ok (), after) ∧
      store.Holds base Offered (ledger ++ [p]) after ∧ store.Keeps tree after := by
  rcases Store.run_appendRecord h.leads p.key p.url p.digest p.data.length with
    ⟨failure, after, hrun, hpaved⟩ | ⟨after, hrun, hfiled, hlocate⟩
  · exact Or.inl ⟨failure, after, hrun, h.pave (.bucket p.key) hpaved⟩
  · exact Or.inr ⟨after, hrun, h.record hheld hfiled hlocate⟩

/-- Content that is seen is held. -/
theorem held_of_hasContent (h : store.Holds base Offered ledger tree) (hd : digest.Supported)
    (hpresent : store.hasContent tree digest = .ok true) : store.Held tree digest :=
  held_of_seen h.leads hd (h.plain _ (.content digest)) hpresent

/-- **The step behind the look** keeps the ledger, and if it is made, the content is held. -/
theorem run_layDown (h : store.Holds base Offered ledger tree) (hoffered : Offered p)
    {present : Bool} (hpresent : present = true → store.Held tree p.digest) :
    ∃ result after, (store.layDown p.digest p.data present).run tree = (result, after) ∧
      store.Holds base Offered ledger after ∧ store.Keeps tree after ∧
      (result = .ok () → store.Held after p.digest) := by
  cases present with
  | true => exact ⟨_, tree, rfl, h, fun _ _ hheld => hheld, fun _ => hpresent rfl⟩
  | false =>
      rw [layDown, if_neg (by simp)]
      exact h.run_placeContent hoffered

/-- **A put** that is met extends the ledger by what it stored; one that fails keeps it. -/
theorem run_put (h : store.Holds base Offered ledger tree) {put : Put}
    (hmeasurable : put.data.Measurable)
    (hoffered : ∀ p : Deposit, p.toPut = put → Offered p) :
    (∃ failure after, (store.put put.key put.url put.data put.declared).run tree =
        (.error failure, after) ∧
      store.Holds base Offered ledger after) ∨
    ∃ p : Deposit, p.toPut = put ∧ ∃ after,
      (store.put put.key put.url put.data put.declared).run tree = (.ok p.digest.token, after) ∧
      store.Holds base Offered (ledger ++ [p]) after := by
  rw [Store.run_put]
  cases hverify : verify put.key put.url put.data put.declared with
  | error failure => exact Or.inl ⟨failure, tree, rfl, h⟩
  | ok digest =>
      have hp := hoffered ⟨put, digest, hverify, hmeasurable⟩ rfl
      simp only
      cases hpresent : store.hasContent tree digest with
      | error failure => exact Or.inl ⟨failure, tree, rfl, h⟩
      | ok present =>
          simp only
          have hlook : present = true → store.Held tree digest := by
            rintro rfl
            exact h.held_of_hasContent (verify_eq_ok_iff.1 hverify).1.supported hpresent
          obtain ⟨result, mid, hlay, hholds, _, hheld⟩ := h.run_layDown hp hlook
          rw [hlay]
          cases result with
          | error failure => exact Or.inl ⟨failure, mid, rfl, hholds⟩
          | ok _ =>
              simp only
              rcases hholds.run_appendRecord (hheld rfl) with
                ⟨failure, after, hrun, hafter, _⟩ | ⟨after, hrun, hafter, _⟩
              · rw [hrun]
                exact Or.inl ⟨failure, after, rfl, hafter⟩
              · rw [hrun]
                exact Or.inr ⟨_, rfl, after, rfl, hafter⟩

/-! ## Reading -/

/-- Once there is a record of any key, nothing but the missing file is in the way of the bucket
of a key that has none. -/
theorem lookUp_bucket_missing (h : store.Holds base Offered ledger tree) (hp : p ∈ ledger)
    (hshare : ∀ q ∈ ledger, bucketNames q.key ≠ bucketNames key) :
    tree.lookUp (store.bucketPath key) = .error .noEntry := by
  obtain ⟨hlocate, _⟩ := h.bucket_file hp
  have hpath : Admissible (store.bucketPath key) :=
    Cache.admissible_bucket key (FileTree.admissible_of_locate_ok hlocate)
  -- content lies deeper than a bucket, so the only file on the way would be a bucket itself
  have hfree : ∀ before, before <+: bucketNames key → ∀ bytes,
      tree.get? (base ++ before) ≠ some (.file bytes) := by
    intro before hbefore bytes hfile
    have hlength := hbefore.length_le
    rcases h.files before bytes hfile with ⟨q, _, rfl, _⟩ | ⟨q, hq, rfl, _⟩
    · simp at hlength
    · exact hshare q hq (hbefore.eq_of_length (by simp))
  rw [bucketPath_eq] at hpath hlocate ⊢
  exact (FileTree.rooted_of_locate h.leads (Cache.bucketNames_ne_nil _) hlocate).lookUp_missing
    (Cache.straight_bucketNames key) (Cache.short_bucketNames key) hpath
    (h.vacant_bucket hshare) hfree

/-- **The entries of a key are those of the ledger**, once there is a record of any key. -/
theorem entries_eq (h : store.Holds base Offered ledger tree) (hne : ledger ≠ []) (key : String) :
    store.entries tree key = .ok ((ledger.filter fun p => p.key = key).map Deposit.entry) := by
  obtain ⟨text, htext, hentries⟩ := entriesOf_bucketBytes ledger key
  by_cases hshare : ∃ p ∈ ledger, bucketNames p.key = bucketNames key
  · obtain ⟨p, hp, hnames⟩ := hshare
    have hread := h.buckets p hp
    rw [bucketPath_eq, hnames, ← bucketPath_eq, bucketBytes_congr hnames] at hread
    rw [entries_of_bucket hread htext, hentries]
  · have hnone : (ledger.filter fun p => p.key = key) = [] := by
      rw [List.filter_eq_nil_iff]
      intro p hp
      simpa using fun hkey => hshare ⟨p, hp, by rw [hkey]⟩
    obtain ⟨p, hp⟩ := List.exists_mem_of_ne_nil ledger hne
    rw [hnone]
    exact entries_of_missing
      (h.lookUp_bucket_missing hp fun q hq hnames => hshare ⟨q, hq, hnames⟩)

/-- Wherever entries are returned, they are those of the ledger. -/
theorem eq_of_entries (h : store.Holds base Offered ledger tree) {found : List Cache.Entry}
    (hfound : store.entries tree key = .ok found) :
    found = (ledger.filter fun p => p.key = key).map Deposit.entry := by
  by_cases hledger : ledger = []
  · subst hledger
    rcases entries_cases hfound with ⟨bytes, _, hread, _⟩ | ⟨rfl, _⟩
    · obtain ⟨_, hfile⟩ := (FileTree.readFile_eq_ok_iff (leads_bucketPath h.leads key)).1 hread
      obtain ⟨q, hq, _⟩ := h.bucket_of_file hfile
      exact absurd hq List.not_mem_nil
    · rfl
  · rw [h.entries_eq hledger] at hfound
    exact (Except.ok.inj hfound).symm

/-- **Content that is held is read** by its token: it is that of a put that was offered and has
the same digest. -/
theorem read_of_held (h : store.Holds base Offered ledger tree) (hd : digest.Supported)
    (hheld : store.Held tree digest) :
    ∃ q, Offered q ∧ q.digest = digest ∧ store.read tree digest.token = .ok q.data := by
  obtain ⟨bytes, hread⟩ := hheld
  obtain ⟨_, hfile⟩ := (FileTree.readFile_eq_ok_iff (leads_contentPath h.leads hd)).1 hread
  obtain ⟨q, hq, rfl, rfl⟩ := h.content_of_file hfile
  exact ⟨q, hq, rfl, read_of_content q.of_data hread⟩

/-- **What a record of the ledger points to can be read.** -/
theorem read_eq (h : store.Holds base Offered ledger tree) (hp : p ∈ ledger) :
    ∃ q, Offered q ∧ q.digest = p.digest ∧ store.read tree p.digest.token = .ok q.data :=
  h.read_of_held p.supported (h.contents p hp)

end Holds

end LockPrefetch.Store
