import LockPrefetch.Proofs.Cache.Layout
import LockPrefetch.Proofs.Cache.Line
import LockPrefetch.Proofs.FileTree.Change
import LockPrefetch.Proofs.FileTree.Look

/-! # What storing leaves

A put looks whether the content is there, lays it down if it is not, and adds a line to the
bucket of its key. Each of the two changes leaves a single file changed, or, if it is refused,
directories on the way to it (`run_placeContent`, `run_appendRecord`). Reading finds what lies
at the places of a store (`entries_of_bucket`, `read_of_content`). -/

set_option autoImplicit false

namespace LockPrefetch.Store

open FileTree (Action Admissible)
open Cache (contentNames bucketNames Leaf)

variable {store : Store} {tree after : FileTree} {base : Location} {digest : Digest}
  {key url : String} {data : Bytes} {declared : Option String}

/-! ## Paths -/

theorem contentPath_eq (store : Store) (h : digest.Supported) :
    store.contentPath digest = ⟨store.root.anchor, store.root.names ++ contentNames digest⟩ :=
  Cache.contentPath_eq store.root h

theorem bucketPath_eq (store : Store) (key : String) :
    store.bucketPath key = ⟨store.root.anchor, store.root.names ++ bucketNames key⟩ :=
  Cache.bucketPath_eq store.root key

theorem leads_contentPath (h : tree.Leads store.root base) (hd : digest.Supported) :
    tree.Leads (store.contentPath digest) (base ++ contentNames digest) := by
  rw [contentPath_eq store hd]
  exact h.join (Cache.straight_contentNames hd)

theorem leads_bucketPath (h : tree.Leads store.root base) (key : String) :
    tree.Leads (store.bucketPath key) (base ++ bucketNames key) := by
  rw [bucketPath_eq]
  exact h.join (Cache.straight_bucketNames key)

/-! ## The steps of a put -/

theorem run_restating_error {restate : FileTree.Fault → Failure}
    {action : Action FileTree.Fault Unit} {fault : FileTree.Fault}
    (h : action.run tree = (.error fault, after)) :
    (Action.restating restate action).run tree = (.error (restate fault), after) := by
  rw [Action.run_restating, h]
  rfl

theorem run_restating_ok {restate : FileTree.Fault → Failure} {action : Action FileTree.Fault Unit}
    (h : action.run tree = (.ok (), after)) :
    (Action.restating restate action).run tree = (.ok (), after) := by
  rw [Action.run_restating, h]
  rfl

theorem placeContent_eq (store : Store) (digest : Digest) (data : Bytes) :
    store.placeContent digest data =
      Action.restating (refused "cache_put" (store.contentPath digest))
        (FileTree.changeBelow (store.contentPath digest) fun _ => data) := by
  unfold placeContent FileTree.changeBelow FileTree.writeFile
  rfl

/-- **Laying content down** leaves it at its place, or is refused and leaves directories. -/
theorem run_placeContent (h : tree.Leads store.root base) (hd : digest.Supported) (data : Bytes) :
    (∃ failure after, (store.placeContent digest data).run tree = (.error failure, after) ∧
      tree.Paved after (base ++ contentNames digest).dropLast) ∨
    ∃ after, (store.placeContent digest data).run tree = (.ok (), after) ∧
      tree.Filed after (base ++ contentNames digest) data ∧
      after.locate (store.contentPath digest) = .ok (base ++ contentNames digest) := by
  rw [placeContent_eq, contentPath_eq store hd]
  rcases FileTree.run_changeBelow h (Cache.straight_contentNames hd)
      (Cache.contentNames_ne_nil digest) (fun _ => data) with
    ⟨fault, after, hrun, hpaved⟩ | ⟨after, hrun, hfiled, hlocate⟩
  · exact Or.inl ⟨_, after, run_restating_error hrun, hpaved⟩
  · exact Or.inr ⟨after, run_restating_ok hrun, hfiled, hlocate⟩

/-- The octets of the line of stored content. -/
def lineOctets (key url : String) (digest : Digest) (size : Nat) : Bytes :=
  Encoding.Utf8.encode (Cache.Bucket.line (Cache.Bucket.payload key url digest.token size))

theorem appendRecord_eq (store : Store) (key url : String) (digest : Digest) (size : Nat) :
    store.appendRecord key url digest size =
      Action.restating (refused "cache_put" (store.bucketPath key))
        (FileTree.changeBelow (store.bucketPath key) (· ++ lineOctets key url digest size)) := by
  unfold appendRecord FileTree.changeBelow FileTree.appendFile lineOctets Cache.Bucket.payload
  rfl

/-- **Adding a record** leaves its line at the end of the bucket, or is refused and leaves
directories. -/
theorem run_appendRecord (h : tree.Leads store.root base) (key url : String) (digest : Digest)
    (size : Nat) :
    (∃ failure after, (store.appendRecord key url digest size).run tree = (.error failure, after) ∧
      tree.Paved after (base ++ bucketNames key).dropLast) ∨
    ∃ after, (store.appendRecord key url digest size).run tree = (.ok (), after) ∧
      tree.Filed after (base ++ bucketNames key)
        (tree.content (base ++ bucketNames key) ++ lineOctets key url digest size) ∧
      after.locate (store.bucketPath key) = .ok (base ++ bucketNames key) := by
  rw [appendRecord_eq, bucketPath_eq]
  rcases FileTree.run_changeBelow h (Cache.straight_bucketNames key) (Cache.bucketNames_ne_nil key)
      (· ++ lineOctets key url digest size) with
    ⟨fault, after, hrun, hpaved⟩ | ⟨after, hrun, hfiled, hlocate⟩
  · exact Or.inl ⟨_, after, run_restating_error hrun, hpaved⟩
  · exact Or.inr ⟨after, run_restating_ok hrun, hfiled, hlocate⟩

/-- A file that is changed leaves the place of every other one as it was. -/
theorem get?_leaf_of_filed {names other : List String} {bytes : Bytes} (hleaf : Leaf names)
    (hfiled : tree.Filed after (base ++ names) bytes) (hother : Leaf other) (hne : other ≠ names) :
    after.get? (base ++ other) = tree.get? (base ++ other) := by
  rcases hfiled.elsewhere _ fun heq => hne (List.append_cancel_left heq) with hsame | ⟨_, _, hway⟩
  · exact hsame
  · exact absurd hway (hother.not_on_way hleaf base)

/-- Laying content down leaves every bucket as it was. -/
theorem get?_bucket_of_filed {bytes : Bytes}
    (hfiled : tree.Filed after (base ++ contentNames digest) bytes) (key : String) :
    after.get? (base ++ bucketNames key) = tree.get? (base ++ bucketNames key) :=
  get?_leaf_of_filed (.content digest) hfiled (.bucket key)
    (Cache.contentNames_ne_bucketNames digest key).symm

theorem run_bind {α β ε : Type} (action : Action ε α) (next : α → Action ε β) (tree : FileTree) :
    (action >>= next).run tree =
      match action.run tree with
      | (.ok a, after) => (next a).run after
      | (.error e, after) => (.error e, after) := by
  rcases hrun : action.run tree with ⟨result, after⟩
  cases result with
  | ok a => exact Action.run_bind_ok hrun next
  | error e => exact Action.run_bind_error hrun next

/-- The step of a put that follows the look: content that is not there is laid down. -/
def layDown (store : Store) (digest : Digest) (data : Bytes) (present : Bool) :
    Action Failure Unit :=
  if present then pure () else store.placeContent digest data

/-- **A put is its steps**, up to the first that fails. -/
theorem run_put (store : Store) (key url : String) (data : Bytes) (declared : Option String)
    (tree : FileTree) :
    (store.put key url data declared).run tree =
      match verify key url data declared with
      | .error failure => (.error failure, tree)
      | .ok digest =>
        match store.hasContent tree digest with
        | .error failure => (.error failure, tree)
        | .ok present =>
          match (store.layDown digest data present).run tree with
          | (.error failure, mid) => (.error failure, mid)
          | (.ok (), mid) =>
            match (store.appendRecord key url digest data.length).run mid with
            | (.error failure, after) => (.error failure, after)
            | (.ok (), after) => (.ok digest.token, after) := by
  have htail : ∀ (digest : Digest) (mid : FileTree),
      (do store.appendRecord key url digest data.length; return digest.token : Action _ _).run mid =
        match (store.appendRecord key url digest data.length).run mid with
        | (.error failure, after) => (.error failure, after)
        | (.ok (), after) => (.ok digest.token, after) := by
    intro digest mid
    rw [run_bind]
    rcases (store.appendRecord key url digest data.length).run mid with ⟨result, after⟩
    cases result <;> rfl
  -- one bind after another, and both ways of the look end in the same tail
  unfold put
  rw [run_bind, Action.run_inspect]
  cases verify key url data declared with
  | error failure => rfl
  | ok digest =>
      simp only
      rw [run_bind, Action.run_inspect]
      cases store.hasContent tree digest with
      | error failure => rfl
      | ok present =>
          cases present with
          | true =>
              simp only [layDown, if_true, Action.run_pure]
              exact htail digest tree
          | false =>
              simp only [layDown, Bool.false_eq_true, if_false]
              rw [run_bind]
              rcases (store.placeContent digest data).run tree with ⟨result, mid⟩
              cases result with
              | error failure => rfl
              | ok _ => exact htail digest mid

/-- **A put returns exactly if its content is verified and each of its steps is met**, and then it
returns the token of the digest. -/
theorem run_put_eq_ok_iff {token : String} :
    (store.put key url data declared).run tree = (.ok token, after) ↔
      ∃ digest present mid, verify key url data declared = .ok digest ∧
        store.hasContent tree digest = .ok present ∧
        (store.layDown digest data present).run tree = (.ok (), mid) ∧
        (store.appendRecord key url digest data.length).run mid = (.ok (), after) ∧
        token = digest.token := by
  rw [run_put]
  constructor
  · intro h
    cases hverify : verify key url data declared with
    | error failure => simp [hverify] at h
    | ok digest =>
        cases hlook : store.hasContent tree digest with
        | error failure => simp [hverify, hlook] at h
        | ok present =>
            rcases hlay : (store.layDown digest data present).run tree with ⟨laid, mid⟩
            cases laid with
            | error failure => simp [hverify, hlook, hlay] at h
            | ok _ =>
                rcases hadd : (store.appendRecord key url digest data.length).run mid with
                  ⟨added, last⟩
                cases added with
                | error failure => simp [hverify, hlook, hlay, hadd] at h
                | ok _ =>
                    simp only [hverify, hlook, hlay, hadd, Prod.mk.injEq, Except.ok.injEq] at h
                    obtain ⟨rfl, rfl⟩ := h
                    exact ⟨digest, present, mid, rfl, hlook, hlay, hadd, rfl⟩
  · rintro ⟨digest, present, mid, hverify, hlook, hlay, hadd, rfl⟩
    simp only [hverify, hlook, hlay, hadd]

/-! ## Reading -/

/-- Content is there if something stands where its path leads. -/
theorem hasContent_eq_ok {present : Bool} (h : store.hasContent tree digest = .ok present) :
    present = true ↔ ∃ place node, tree.locate (store.contentPath digest) = .ok place ∧
      tree.get? place = some node := by
  unfold hasContent at h
  generalize store.contentPath digest = path at h ⊢
  cases hexists : tree.pathExists path with
  | error fault => simp [hexists] at h
  | ok found =>
      obtain rfl : found = present := by simpa [hexists] using h
      exact FileTree.pathExists_eq_ok hexists

/-- Whatever is found, content is there. -/
theorem hasContent_of_found {node : FileTree.Node}
    (h : tree.lookUp (store.contentPath digest) = .ok node) :
    store.hasContent tree digest = .ok true := by
  unfold hasContent FileTree.pathExists
  generalize store.contentPath digest = path at h ⊢
  simp only [h, mapError_ok]

/-- **The look passes over every refusal** but that of a name that is too long. -/
theorem hasContent_of_refused {refusal : FileTree.Refusal}
    (h : tree.lookUp (store.contentPath digest) = .error refusal)
    (hlong : refusal ≠ .nameTooLong) : store.hasContent tree digest = .ok false := by
  unfold hasContent FileTree.pathExists
  generalize store.contentPath digest = path at h ⊢
  simp only [h, mapError_ok]

theorem hasContent_of_missing (h : tree.lookUp (store.contentPath digest) = .error .noEntry) :
    store.hasContent tree digest = .ok false :=
  hasContent_of_refused h nofun

/-- The entries of a bucket that is there. -/
theorem entries_of_bucket {bytes : Bytes} {text : List Char}
    (hread : tree.readFile (store.bucketPath key) = .ok bytes)
    (htext : Encoding.Utf8.decode bytes = .ok text) :
    store.entries tree key = Cache.Bucket.entriesOf key text := by
  unfold entries
  generalize store.bucketPath key = path at hread ⊢
  simp only [hread, htext, mapError_ok, bind, Except.bind]

/-- There are no entries where the bucket is missing. -/
theorem entries_of_missing (h : tree.lookUp (store.bucketPath key) = .error .noEntry) :
    store.entries tree key = .ok [] := by
  unfold entries
  generalize store.bucketPath key = path at h ⊢
  have hread : tree.readFile path = .error (FileTree.about path .noEntry) := by
    rw [FileTree.readFile, h]
  simp only [hread, FileTree.about, if_true]

/-- **Entries come from a bucket that can be read**, or there are none because it is missing. -/
theorem entries_cases {found : List Cache.Entry} (h : store.entries tree key = .ok found) :
    (∃ bytes text, tree.readFile (store.bucketPath key) = .ok bytes ∧
      Encoding.Utf8.decode bytes = .ok text ∧ Cache.Bucket.entriesOf key text = .ok found) ∨
    (found = [] ∧ tree.lookUp (store.bucketPath key) = .error .noEntry) := by
  unfold entries at h
  generalize store.bucketPath key = path at h ⊢
  cases hread : tree.readFile path with
  | ok bytes =>
      cases htext : Encoding.Utf8.decode bytes with
      | error fault => simp [hread, htext, bind, Except.bind] at h
      | ok text =>
          simp only [hread, htext, mapError_ok, bind, Except.bind] at h
          exact Or.inl ⟨bytes, text, rfl, htext, h⟩
  | error fault =>
      simp only [hread] at h
      split at h
      · rename_i hmissing
        cases h
        exact Or.inr ⟨rfl, (FileTree.readFile_noEntry_iff hread).1 hmissing⟩
      · cases h

/-- Content is looked up by the digest that a token denotes. -/
theorem contains_of_parse {token : String} (h : Digest.parse token = .ok digest) :
    store.contains tree token = store.hasContent tree digest := by
  unfold contains
  simp only [h, mapError_ok, bind, Except.bind]

/-- **Content that lies at its place is read** by any token that denotes its digest. -/
theorem read_of_parse {token : String} (h : Digest.parse token = .ok digest) (hof : digest.Of data)
    (hread : tree.readFile (store.contentPath digest) = .ok data) :
    store.read tree token = .ok data := by
  have hcompute := Digest.compute_eq_ok_iff.2 ⟨rfl, hof⟩
  unfold read
  simp only [h, mapError_ok, bind, Except.bind]
  generalize store.contentPath digest = path at hread ⊢
  simp only [hread, hcompute, mapError_ok, if_true, pure, Except.pure]

/-- Its own token is one of them. -/
theorem read_of_content (hof : digest.Of data)
    (hread : tree.readFile (store.contentPath digest) = .ok data) :
    store.read tree digest.token = .ok data :=
  read_of_parse (Digest.parse_token hof.supported) hof hread

end LockPrefetch.Store
