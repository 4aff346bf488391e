import LockPrefetch.Proofs.Cache.Interleaving

/-! # What shows the order of puts

Puts that have all returned leave the same places whatever turns they took: the same directories
(`Consistent.directory_iff`), contents of the same digests, and buckets with the same lines. Only
the order of the lines in a bucket, and which of several contents with one digest is kept, can
tell the orders apart (`rearranged_of_consistent`). If puts that share a place leave the same
there (`Alike`), nothing does, and the trees are the same octet by octet (`same_of_alike`).

Puts under one key that go by different tokens are not alike, and their bucket does tell which of
them came first (`Holds.first_shows`). -/

set_option autoImplicit false

namespace LockPrefetch.Store

open Cache (contentNames bucketNames Leaf)

variable {store : Store} {tree after first second : FileTree} {base : Location}
  {puts others : List Put} {put : Put} {progress : Progress} {session other : Session}
  {names : List String} {ledger ledger' : List Deposit} {p q : Deposit}

/-! ## Directories -/

/-- Names on the way to what a verified put stores. -/
def OnWay (puts : List Put) (names : List String) : Prop :=
  ∃ put ∈ puts, ∃ digest, verify put.key put.url put.data put.declared = .ok digest ∧
    (names <+: (contentNames digest).dropLast ∨ names <+: (bucketNames put.key).dropLast)

/-- **No directory stands below the root** but on the way to what a put stores. -/
def Furnished (base : Location) (puts : List Put) (tree : FileTree) : Prop :=
  ∀ names, tree.get? (base ++ names) = some .directory → OnWay puts names

theorem Fresh.furnished (h : store.Fresh base tree) (puts : List Put) :
    Furnished base puts tree := by
  intro names hdir
  rw [h.get?_eq_none] at hdir
  cases hdir

/-- New directories on the way to what a put stores keep a store furnished. -/
theorem Furnished.spread (h : Furnished base puts tree) {leaf : List String} (hleaf : leaf ≠ [])
    (hway : ∀ names, names <+: leaf.dropLast → OnWay puts names)
    (hmade : ∀ {place}, after.get? place = some .directory →
      tree.get? place = some .directory ∨ place <+: (base ++ leaf).dropLast) :
    Furnished base puts after := by
  intro names hdir
  rcases hmade hdir with hbefore | hnew
  · exact h names hbefore
  · rw [List.dropLast_append_of_ne_nil hleaf, List.prefix_append_right_inj] at hnew
    exact hway names hnew

/-- **A step of a put** makes no other directories. -/
theorem Furnished.step (h : Furnished base puts tree) (hleads : tree.Leads store.root base)
    (hput : put ∈ puts) (hsound : Sound store tree put progress) :
    Furnished base puts (put.step store progress tree).2 := by
  rcases put.tree_step store progress tree with
    hsame | ⟨digest, rfl, hplaced⟩ | ⟨digest, rfl, hadded⟩
  · rw [hsame]
    exact h
  · have hverify := hsound.1
    have hway : ∀ names, names <+: (contentNames digest).dropLast → OnWay puts names :=
      fun names hnames => ⟨put, hput, digest, hverify, Or.inl hnames⟩
    rw [hplaced]
    rcases run_placeContent hleads (verify_eq_ok_iff.1 hverify).1.supported put.data with
      ⟨failure, after, hrun, hpaved⟩ | ⟨after, hrun, hfiled, _⟩
    · rw [hrun]
      exact h.spread (Cache.contentNames_ne_nil digest) hway hpaved.get?_of_directory
    · rw [hrun]
      exact h.spread (Cache.contentNames_ne_nil digest) hway hfiled.get?_of_directory
  · have hway : ∀ names, names <+: (bucketNames put.key).dropLast → OnWay puts names :=
      fun names hnames => ⟨put, hput, digest, hsound.1, Or.inr hnames⟩
    rw [hadded]
    rcases run_appendRecord hleads put.key put.url digest put.data.length with
      ⟨failure, after, hrun, hpaved⟩ | ⟨after, hrun, hfiled, _⟩
    · rw [hrun]
      exact h.spread (Cache.bucketNames_ne_nil put.key) hway hpaved.get?_of_directory
    · rw [hrun]
      exact h.spread (Cache.bucketNames_ne_nil put.key) hway hfiled.get?_of_directory

theorem Furnished.run (h : Furnished base puts session.tree)
    (hconsistent : Consistent store base puts session)
    (hsize : ∀ put ∈ puts, put.data.Measurable) (schedule : List Nat) :
    Furnished base puts (session.run store schedule).tree := by
  induction schedule generalizing session with
  | nil => exact h
  | cons turn rest ih =>
      refine ih ?_ (hconsistent.step hsize turn)
      unfold Session.step
      cases htask : session.tasks[turn]? with
      | none => exact h
      | some task =>
          have hmem := List.mem_of_getElem? htask
          have hput : task.1 ∈ puts := hconsistent.same ▸ List.mem_map_of_mem hmem
          obtain ⟨ledger, hholds, _⟩ := hconsistent.ledger
          exact h.step hholds.leads hput (hconsistent.sound task hmem)

/-- Directories stand on the way to what was recorded. -/
theorem Holds.directory_of_onWay {Offered : Deposit → Prop}
    (h : store.Holds base Offered ledger tree) (hp : p ∈ ledger)
    (hway : names <+: (contentNames p.digest).dropLast ∨ names <+: (bucketNames p.key).dropLast) :
    tree.get? (base ++ names) = some .directory := by
  rcases hway with hway | hway
  · have hlocate := ((held_iff h.leads p.supported).1 (h.contents p hp)).1
    rw [contentPath_eq store p.supported] at hlocate
    exact FileTree.directory_of_locate h.leads (Cache.straight_contentNames p.supported) hlocate
      hway (Cache.contentNames_ne_nil p.digest)
  · have hlocate := (h.bucket_file hp).1
    rw [bucketPath_eq] at hlocate
    exact FileTree.directory_of_locate h.leads (Cache.straight_bucketNames p.key) hlocate hway
      (Cache.bucketNames_ne_nil p.key)

/-! ## Puts that have all returned -/

/-- Every put has returned. -/
def Stored (session : Session) : Prop := ∀ task ∈ session.tasks, task.2.returned = true

theorem Stored.returned_eq (h : Stored session) :
    returned session.tasks = session.tasks.map Prod.fst := by
  rw [returned, List.filter_eq_self.2 h]

/-- **The ledger in the end** lists all puts. -/
theorem Consistent.ledger_of_stored (h : Consistent store base puts session)
    (hall : Stored session) :
    ∃ ledger, store.Holds base (fun p => p.toPut ∈ puts) ledger session.tree ∧
      (ledger.map Deposit.toPut).Perm puts := by
  obtain ⟨ledger, hholds, hperm⟩ := h.ledger
  rw [hall.returned_eq, h.same] at hperm
  exact ⟨ledger, hholds, hperm⟩

/-- A put is verified with one digest only. -/
theorem Deposit.toPut_injective : Function.Injective Deposit.toPut := by
  intro p q h
  have hdigest : p.digest = q.digest := by
    have hp := p.verified
    rw [h, q.verified] at hp
    exact (Except.ok.inj hp).symm
  cases p
  cases q
  cases h
  cases hdigest
  rfl

theorem mem_ledger_iff (hperm : (ledger.map Deposit.toPut).Perm puts) (p : Deposit) :
    p ∈ ledger ↔ p.toPut ∈ puts := by
  rw [← hperm.mem_iff, List.mem_map_of_injective Deposit.toPut_injective]

/-- **The directories in the end** are those on the way to what the puts stored. -/
theorem Consistent.directory_iff (h : Consistent store base puts session) (hall : Stored session)
    (hfurnished : Furnished base puts session.tree) (names : List String) :
    session.tree.get? (base ++ names) = some .directory ↔ OnWay puts names := by
  refine ⟨hfurnished names, ?_⟩
  rintro ⟨put, hput, digest, hverify, hway⟩
  obtain ⟨ledger, hholds, hperm⟩ := h.ledger_of_stored hall
  obtain ⟨p, hp, rfl⟩ := List.mem_map.1 (hperm.mem_iff.2 hput)
  rw [p.verified] at hverify
  rw [← Except.ok.inj hverify] at hway
  exact hholds.directory_of_onWay hp hway

/-! ## Two orders -/

/-- **What two orders of puts have in common**: the same directories and files below the root,
contents with the digest that their place spells, buckets with the same lines in some order, and
the same entries of each key in some order. -/
structure Rearranged (store : Store) (base : Location) (puts : List Put)
    (first second : FileTree) : Prop where
  directories : ∀ names, first.get? (base ++ names) = some .directory ↔
    second.get? (base ++ names) = some .directory
  files : ∀ names, (∃ bytes, first.get? (base ++ names) = some (.file bytes)) ↔
    ∃ bytes, second.get? (base ++ names) = some (.file bytes)
  contents : ∀ digest bytes bytes',
    first.get? (base ++ contentNames digest) = some (.file bytes) →
    second.get? (base ++ contentNames digest) = some (.file bytes') →
    digest.Of bytes ∧ digest.Of bytes'
  buckets : ∃ ledger ledger' : List Deposit, (ledger.map Deposit.toPut).Perm puts ∧
    ledger.Perm ledger' ∧ ∀ key,
      first.content (base ++ bucketNames key) = bucketBytes ledger key ∧
      second.content (base ++ bucketNames key) = bucketBytes ledger' key
  entries : ∀ key found found', store.entries first key = .ok found →
    store.entries second key = .ok found' → found.Perm found'

/-- The order in which the puts are listed does not matter. -/
theorem Rearranged.perm (h : Rearranged store base puts first second)
    (hputs : puts.Perm others) : Rearranged store base others first second := by
  obtain ⟨ledger, ledger', hperm, hledger, hbuckets⟩ := h.buckets
  exact { h with buckets := ⟨ledger, ledger', hperm.trans hputs, hledger, hbuckets⟩ }

/-- A file of one ledger is there in the tree of another one with the same deposits. -/
theorem Holds.file_of_file (h : store.Holds base (fun p => p.toPut ∈ puts) ledger first)
    (h' : store.Holds base (fun p => p.toPut ∈ puts) ledger' second)
    (hperm : (ledger'.map Deposit.toPut).Perm puts) (hsame : ∀ p ∈ ledger, p ∈ ledger')
    {bytes : Bytes} (hfile : first.get? (base ++ names) = some (.file bytes)) :
    ∃ bytes', second.get? (base ++ names) = some (.file bytes') := by
  rcases h.files names bytes hfile with ⟨p, hp, rfl, _⟩ | ⟨p, hp, rfl, _⟩
  · have hmem := (mem_ledger_iff hperm p).2 hp
    exact ((held_iff h'.leads p.supported).1 (h'.contents p hmem)).2
  · exact ⟨_, (h'.bucket_file (hsame p hp)).2⟩

/-- **Whatever turns the puts took**, what they leave is rearranged at most. -/
theorem rearranged_of_consistent (h : Consistent store base puts session)
    (h' : Consistent store base others other) (hputs : puts.Perm others)
    (hall : Stored session) (hall' : Stored other)
    (hfurnished : Furnished base puts session.tree)
    (hfurnished' : Furnished base others other.tree) :
    Rearranged store base puts session.tree other.tree := by
  obtain ⟨ledger, hholds, hperm⟩ := h.ledger_of_stored hall
  obtain ⟨ledger', hother, hperm'⟩ := h'.ledger_of_stored hall'
  have hholds' : store.Holds base (fun p => p.toPut ∈ puts) ledger' other.tree :=
    hother.imp fun p hp => hputs.mem_iff.2 hp
  replace hperm' : (ledger'.map Deposit.toPut).Perm puts := hperm'.trans hputs.symm
  have hledger : ledger.Perm ledger' :=
    (List.map_perm_map_iff Deposit.toPut_injective).1 (hperm.trans hperm'.symm)
  have hways : ∀ names, OnWay puts names ↔ OnWay others names := by
    intro names
    simp only [OnWay, hputs.mem_iff]
  refine ⟨fun names => ?_, fun names => ⟨?_, ?_⟩, ?_, ⟨ledger, ledger', hperm, hledger, ?_⟩, ?_⟩
  · rw [h.directory_iff hall hfurnished, h'.directory_iff hall' hfurnished', hways]
  · rintro ⟨bytes, hfile⟩
    exact hholds.file_of_file hholds' hperm' (fun p hp => hledger.mem_iff.1 hp) hfile
  · rintro ⟨bytes, hfile⟩
    exact hholds'.file_of_file hholds hperm (fun p hp => hledger.mem_iff.2 hp) hfile
  · intro digest bytes bytes' hfile hfile'
    obtain ⟨p, _, rfl, rfl⟩ := hholds.content_of_file hfile
    obtain ⟨q, _, hdigest, rfl⟩ := hholds'.content_of_file hfile'
    exact ⟨p.of_data, hdigest ▸ q.of_data⟩
  · exact fun key => ⟨hholds.content_bucket key, hholds'.content_bucket key⟩
  · intro key found found' hfound hfound'
    rw [hholds.eq_of_entries hfound, hholds'.eq_of_entries hfound']
    exact (hledger.filter _).map _

/-! ## Puts that are alike -/

/-- **Puts that leave the same where they share a place**: those in one bucket write the same
line, and those with one digest have the same content. -/
structure Alike (puts : List Put) : Prop where
  records : ∀ p q : Deposit, p.toPut ∈ puts → q.toPut ∈ puts →
    bucketNames p.key = bucketNames q.key → p.line = q.line
  contents : ∀ p q : Deposit, p.toPut ∈ puts → q.toPut ∈ puts → p.digest = q.digest →
    p.data = q.data

theorem Alike.perm (h : Alike puts) (hputs : puts.Perm others) : Alike others where
  records := fun p q hp hq => h.records p q (hputs.mem_iff.2 hp) (hputs.mem_iff.2 hq)
  contents := fun p q hp hq => h.contents p q (hputs.mem_iff.2 hp) (hputs.mem_iff.2 hq)

/-- Pieces that are all the same are joined to the same in any order. -/
theorem flatMap_perm {α β : Type} {f : α → List β} {xs ys : List α} (h : xs.Perm ys)
    (hsame : ∀ a ∈ xs, ∀ b ∈ xs, f a = f b) : xs.flatMap f = ys.flatMap f := by
  induction h with
  | nil => rfl
  | cons a _ ih =>
      rw [List.flatMap_cons, List.flatMap_cons, ih fun b hb c hc =>
        hsame b (List.mem_cons_of_mem a hb) c (List.mem_cons_of_mem a hc)]
  | swap a b rest =>
      simp only [List.flatMap_cons, hsame a (by simp) b (by simp)]
  | trans hfirst _ ih ih' =>
      rw [ih hsame, ih' fun a ha b hb => hsame a (hfirst.mem_iff.2 ha) b (hfirst.mem_iff.2 hb)]

/-- Buckets of puts that are alike do not tell their order. -/
theorem Alike.bucketBytes_eq (h : Alike puts) (hperm : (ledger.map Deposit.toPut).Perm puts)
    (hledger : ledger.Perm ledger') (key : String) :
    bucketBytes ledger key = bucketBytes ledger' key := by
  refine flatMap_perm (hledger.filter _) fun p hp q hq => ?_
  obtain ⟨hp, hpkey⟩ := List.mem_filter.1 hp
  obtain ⟨hq, hqkey⟩ := List.mem_filter.1 hq
  simp only [decide_eq_true_eq] at hpkey hqkey
  exact h.records p q ((mem_ledger_iff hperm p).1 hp) ((mem_ledger_iff hperm q).1 hq)
    (hpkey.trans hqkey.symm)

/-- **Puts that are alike leave the same tree**, octet by octet, whatever turns they took. -/
theorem same_of_alike (halike : Alike puts) (h : Consistent store base puts session)
    (h' : Consistent store base others other) (hputs : puts.Perm others)
    (hall : Stored session) (hall' : Stored other)
    (hfurnished : Furnished base puts session.tree)
    (hfurnished' : Furnished base others other.tree) (names : List String) :
    session.tree.get? (base ++ names) = other.tree.get? (base ++ names) := by
  have hsame := rearranged_of_consistent h h' hputs hall hall' hfurnished hfurnished'
  obtain ⟨ledger, hholds, _⟩ := h.ledger_of_stored hall
  obtain ⟨ledger', hother, _⟩ := h'.ledger_of_stored hall'
  cases hnode : session.tree.get? (base ++ names) with
  | none =>
      cases hnode' : other.tree.get? (base ++ names) with
      | none => rfl
      | some node =>
          cases node with
          | directory =>
              rw [(hsame.directories names).2 hnode'] at hnode
              cases hnode
          | file bytes =>
              obtain ⟨bytes', hfile⟩ := (hsame.files names).2 ⟨bytes, hnode'⟩
              rw [hfile] at hnode
              cases hnode
  | some node =>
      cases node with
      | directory => rw [(hsame.directories names).1 hnode]
      | file bytes =>
          obtain ⟨bytes', hfile⟩ := (hsame.files names).1 ⟨bytes, hnode⟩
          rw [hfile]
          rcases hholds.files names bytes hnode with ⟨p, hp, rfl, rfl⟩ | ⟨p, _, rfl, _⟩
          · -- content: both trees keep that of a put with this digest
            obtain ⟨q, hq, hdigest, rfl⟩ := hother.content_of_file hfile
            rw [halike.contents p q hp (hputs.mem_iff.2 hq) hdigest.symm]
          · -- a bucket: both trees hold the lines of its keys
            obtain ⟨listed, listed', hperm, hledger, hbuckets⟩ := hsame.buckets
            obtain ⟨hbytes, hbytes'⟩ := hbuckets p.key
            rw [FileTree.content_of_get? hnode] at hbytes
            rw [FileTree.content_of_get? hfile] at hbytes'
            rw [hbytes, hbytes', halike.bucketBytes_eq hperm hledger]

/-! ## Puts that are not alike -/

/-- **The first record of a key shows** in its bucket, if the first deposits of two ledgers go
by different tokens. -/
theorem Holds.first_shows {Offered Offered' : Deposit → Prop}
    (h : store.Holds base Offered (p :: ledger) first)
    (h' : store.Holds base Offered' (q :: ledger') second) (hkey : p.key = q.key)
    (htoken : p.digest.token ≠ q.digest.token) :
    first.get? (base ++ bucketNames p.key) ≠ second.get? (base ++ bucketNames p.key) := by
  intro hsame
  -- the same octets would be read as the same entries
  have hbytes : bucketBytes (p :: ledger) p.key = bucketBytes (q :: ledger') p.key := by
    rw [← h.content_bucket, ← h'.content_bucket, FileTree.content, FileTree.content, hsame]
  obtain ⟨text, hdecode, hread⟩ := entriesOf_bucketBytes (p :: ledger) p.key
  obtain ⟨text', hdecode', hread'⟩ := entriesOf_bucketBytes (q :: ledger') p.key
  rw [hbytes, hdecode'] at hdecode
  cases hdecode
  rw [hread'] at hread
  have hentries := Except.ok.inj hread
  rw [List.filter_cons_of_pos (by simpa using hkey.symm), List.filter_cons_of_pos (by simp),
    List.map_cons, List.map_cons] at hentries
  have hfirst := congrArg Cache.Entry.integrity (List.cons.inj hentries).1
  exact htoken (Option.some.inj hfirst).symm

end LockPrefetch.Store
