import LockPrefetch.Proofs.Cache.LateRoot
import LockPrefetch.Proofs.Cache.Ledger

/-! # Histories of a store

However a store is used, what lies below its root has one of two forms: content under the
digest of its own octets (`ContentFile`), or a bucket of complete records whose keys its place
spells (`BucketFile`). Operations may return or fail; only puts change the tree. -/

set_option autoImplicit false

namespace LockPrefetch.Store

open FileTree (Action)
open Cache (contentNames bucketNames)

/-! ## Operations -/

/-- What a store is asked for. -/
inductive Operation where
  | put (put : Put)
  | get (key : String)
  | entries (key : String)
  | contains (token : String)
  | read (token : String)
  | reopen
deriving DecidableEq, Repr

/-- What an operation returns. -/
inductive Answer where
  | token (token : String)
  | entry (entry : Option Cache.Entry)
  | entries (entries : List Cache.Entry)
  | verdict (there : Bool)
  | content (data : Bytes)
  | opened (store : Store)
deriving DecidableEq, Repr

namespace Operation

/-- An operation on a store. Opening the store once more changes nothing: a store is no more
than its root. -/
def action (store : Store) : Operation → Action Failure Answer
  | .put ⟨key, url, data, declared⟩ => do
    return .token (← store.put key url data declared)
  | .get key => Action.inspect fun tree => (store.get tree key).map .entry
  | .entries key => Action.inspect fun tree => (store.entries tree key).map .entries
  | .contains token => Action.inspect fun tree => (store.contains tree token).map .verdict
  | .read token => Action.inspect fun tree => (store.read tree token).map .content
  | .reopen => pure (.opened ⟨store.root⟩)

variable {store : Store} {tree after : FileTree} {key url token : String} {data : Bytes}
  {declared : Option String} {failure : Failure}

theorem run_put_ok (h : (store.put key url data declared).run tree = (.ok token, after)) :
    ((put ⟨key, url, data, declared⟩).action store).run tree = (.ok (.token token), after) := by
  rw [action, Action.run_bind_ok h]
  rfl

theorem run_put_error (h : (store.put key url data declared).run tree = (.error failure, after)) :
    ((put ⟨key, url, data, declared⟩).action store).run tree = (.error failure, after) := by
  rw [action, Action.run_bind_error h]

end Operation

/-- The tree after operations one after another, whether they return or fail. -/
def afterAll (store : Store) (operations : List Operation) (tree : FileTree) : FileTree :=
  operations.foldl (fun tree operation => ((operation.action store).run tree).2) tree

/-! ## Forms of files -/

/-- The name of a function as it is spelled in some put, or that of the default. -/
def Spelled (operations : List Operation) (name : String) : Prop :=
  name = Digest.defaultName ∨ ∃ p, .put p ∈ operations ∧ ∃ token, p.declared = some token ∧
    (Text.cut '-' token.toList).1 = name.toList

/-- **A content file**: it lies under a function and the digest of its own octets. -/
def ContentFile (operations : List Operation) (names : List String) (bytes : Bytes) : Prop :=
  ∃ name a, Spelled operations name ∧ Hash.Algorithm.ofName? name = some a ∧
    names = Cache.contentDirectory :: name :: Cache.shards (Hex.encode (a.digest bytes))

/-- The text of a record for the bucket at a place. -/
structure Record (names : List String) (payload : List Char) : Prop where
  noLineFeed : '\n' ∉ payload
  noReturn : '\r' ∉ payload
  noTab : '\t' ∉ payload
  members : ∃ members key token digest, Json.read payload = .ok (.object members) ∧
    Ordered.get? "key" members = some (.string key) ∧
    names = Cache.indexDirectory :: Cache.shards (Cache.keyHash key) ∧
    Ordered.get? "time" members = some (.integer 0) ∧
    Ordered.get? "integrity" members = some (.string token) ∧
    Digest.parse token = .ok digest ∧ digest.token = token

/-- **A bucket file**: one line or more, each with the checksum of its record. -/
def BucketFile (names : List String) (bytes : Bytes) : Prop :=
  ∃ payloads, payloads ≠ [] ∧
    bytes = payloads.flatMap (fun payload => Encoding.Utf8.encode (Cache.Bucket.line payload)) ∧
    ∀ payload ∈ payloads, Record names payload

variable {store : Store} {tree : FileTree} {base : Location} {Offered : Deposit → Prop}
  {ledger : List Deposit} {operations : List Operation} {p : Deposit} {names : List String}
  {bytes : Bytes}

/-- A deposit that some put of the operations makes. -/
def Offers (operations : List Operation) (p : Deposit) : Prop := .put p.toPut ∈ operations

theorem spelled_of_offers (h : Offers operations p) : Spelled operations p.digest.name := by
  have hdeclares := (verify_eq_ok_iff.1 p.verified).2
  cases hdeclared : p.declared with
  | none =>
      rw [hdeclared] at hdeclares
      exact Or.inl hdeclares
  | some token =>
      rw [hdeclared] at hdeclares
      exact Or.inr ⟨p.toPut, h, token, hdeclared, (Digest.name_of_parse hdeclares).symm⟩

theorem contentFile_of_offers (h : Offers operations p) :
    ContentFile operations (contentNames p.digest) p.data := by
  obtain ⟨a, hname, hoctets⟩ := p.of_data
  refine ⟨p.digest.name, a, spelled_of_offers h, hname, ?_⟩
  rw [contentNames, Digest.hex, hoctets]

/-- The record of a deposit says what a record has to. -/
theorem record_payload (p : Deposit) : Record (bucketNames p.key) p.payload where
  noLineFeed := Cache.Bucket.not_mem_payload (by decide)
  noReturn := Cache.Bucket.not_mem_payload (by decide)
  noTab := Cache.Bucket.not_mem_payload (by decide)
  members := by
    refine ⟨_, p.key, p.digest.token, p.digest, Cache.Bucket.read_payload p.measurable.sized,
      ?_, rfl, ?_, ?_, Digest.parse_token p.supported, rfl⟩
    · simp [Ordered.get?]
    · simp [Ordered.get?, Cache.Bucket.writtenTime]
    · simp [Ordered.get?]

theorem bucketFile_of_mem (hp : p ∈ ledger) :
    BucketFile (bucketNames p.key) (bucketBytes ledger p.key) := by
  refine ⟨(sharing ledger p.key).map Deposit.payload, ?_, ?_, ?_⟩
  · have hmem : p ∈ sharing ledger p.key := by simp [sharing, hp]
    exact List.ne_nil_of_mem (List.mem_map_of_mem hmem)
  · rw [bucketBytes, List.flatMap_map]
    rfl
  · intro payload hpayload
    obtain ⟨q, hq, rfl⟩ := List.mem_map.1 hpayload
    have hnames : bucketNames q.key = bucketNames p.key := by
      simpa using (List.mem_filter.1 hq).2
    rw [← hnames]
    exact record_payload q

/-- **Every file below the root has one of the two forms** where a ledger is held. -/
theorem Holds.form (h : store.Holds base (Offers operations) ledger tree)
    (hfile : tree.get? (base ++ names) = some (.file bytes)) :
    ContentFile operations names bytes ∨ BucketFile names bytes := by
  rcases h.files names bytes hfile with ⟨p, hp, rfl, rfl⟩ | ⟨p, hp, rfl, rfl⟩
  · exact Or.inl (contentFile_of_offers hp)
  · exact Or.inr (bucketFile_of_mem hp)

/-! ## Runs -/

/-- **An operation** keeps the ledger or extends it by what a put stored. -/
theorem Holds.run_action (h : store.Holds base Offered ledger tree) {operation : Operation}
    (hmeasurable : ∀ p, operation = .put p → p.data.Measurable)
    (hoffered : ∀ p : Deposit, operation = .put p.toPut → Offered p) :
    ∃ ledger', store.Holds base Offered ledger' ((operation.action store).run tree).2 := by
  cases operation with
  | put p =>
      have hput := h.run_put (hmeasurable p rfl) fun q hq => hoffered q (by rw [hq])
      rcases hput with ⟨failure, after, hrun, hholds⟩ | ⟨q, _, after, hrun, hholds⟩
      · rw [Operation.run_put_error hrun]
        exact ⟨ledger, hholds⟩
      · rw [Operation.run_put_ok hrun]
        exact ⟨ledger ++ [q], hholds⟩
  -- the others only look
  | get key => exact ⟨ledger, h⟩
  | entries key => exact ⟨ledger, h⟩
  | contains token => exact ⟨ledger, h⟩
  | read token => exact ⟨ledger, h⟩
  | reopen => exact ⟨ledger, h⟩

theorem Holds.afterAll (h : store.Holds base Offered ledger tree)
    (hmeasurable : ∀ p, .put p ∈ operations → p.data.Measurable)
    (hoffered : ∀ p : Deposit, Offers operations p → Offered p) :
    ∃ ledger', store.Holds base Offered ledger' (store.afterAll operations tree) := by
  induction operations generalizing tree ledger with
  | nil => exact ⟨ledger, h⟩
  | cons operation rest ih =>
      have hfirst : ∀ p, operation = .put p → .put p ∈ operation :: rest := by
        rintro p rfl
        exact List.mem_cons_self
      obtain ⟨ledger', hholds⟩ := h.run_action (fun p hp => hmeasurable p (hfirst p hp))
        fun p hp => hoffered p (hfirst p.toPut hp)
      exact ih hholds (fun p hp => hmeasurable p (List.mem_cons_of_mem _ hp))
        fun p hp => hoffered p (List.mem_cons_of_mem _ hp)

/-- **Whatever a store is asked for, the files below its root have one of the two forms**, if
nothing stood there at first and each `..` of the root goes up from a directory. -/
theorem files_afterAll (h : store.Fresh base tree)
    (hmeasurable : ∀ p, .put p ∈ operations → p.data.Measurable) :
    (store.afterAll operations tree).Leads store.root base ∧
      ∀ names bytes, (store.afterAll operations tree).get? (base ++ names) = some (.file bytes) →
        ContentFile operations names bytes ∨ BucketFile names bytes := by
  obtain ⟨ledger, hholds⟩ := (h.holds (Offers operations)).afterAll hmeasurable fun _ hp => hp
  exact ⟨hholds.leads, fun names bytes hfile => hholds.form hfile⟩

/-- What a store may be asked for: a put of `b` by an odd token, one of other content by the same
digest, and `b` once more, with looks before, between and behind them. -/
def errands : List Operation :=
  [.contains "MD5-kutf/uauL+w61xx3dTFXjw==",
    .put ⟨"k", "u", [98], some "MD5-kutf/uauL+w61xx3dTFXjx==?x"⟩,
    .put ⟨"k", "v", [97], some "md5-kutf/uauL+w61xx3dTFXjw=="⟩,
    .entries "k", .reopen,
    .put ⟨"k", "w", [98], some "MD5-kutf/uauL+w61xx3dTFXjw=="⟩,
    .read "MD5-kutf/uauL+w61xx3dTFXjw==", .get "k"]

/-- They leave `b` under the name that the tokens spell, and a record for each put but the one that
fails. -/
theorem files_afterAll_errands :
    (relative ["store"]).Fresh ["", "store"] FileTree.empty ∧
      (∀ p, .put p ∈ errands → p.data.Measurable) ∧
      ((relative ["store"]).afterAll errands FileTree.empty).get?
          ["", "store", "content-v2", "MD5", "92", "eb", "5ffee6ae2fec3ad71c777531578f"] =
        some (.file [98]) ∧
      ((relative ["store"]).afterAll errands FileTree.empty).content
          (["", "store"] ++ bucketNames "k") =
        lineOctets "k" "u" ⟨"MD5", Hash.Algorithm.md5.digest [98]⟩ 1 ++
          lineOctets "k" "w" ⟨"MD5", Hash.Algorithm.md5.digest [98]⟩ 1 ∧
      ∀ names bytes, ((relative ["store"]).afterAll errands FileTree.empty).get?
          (["", "store"] ++ names) = some (.file bytes) →
        ContentFile errands names bytes ∨ BucketFile names bytes := by
  have hfresh : (relative ["store"]).Fresh ["", "store"] FileTree.empty :=
    ⟨wellFormed_empty, FileTree.leads_of_straight _ (by decide), by decide⟩
  have hmeasurable : ∀ p, .put p ∈ errands → p.data.Measurable := by
    intro p hp
    have hone : p.data.length = 1 := by
      simp only [errands, List.mem_cons, reduceCtorEq, List.not_mem_nil, or_false, false_or,
        Operation.put.injEq] at hp
      rcases hp with rfl | rfl | rfl
      all_goals rfl
    exact Bytes.measurable_of_lt (by rw [hone]; decide)
  have hleft : ((relative ["store"]).afterAll errands FileTree.empty).get?
        ["", "store", "content-v2", "MD5", "92", "eb", "5ffee6ae2fec3ad71c777531578f"] =
        some (.file [98]) ∧
      ((relative ["store"]).afterAll errands FileTree.empty).content
          (["", "store"] ++ bucketNames "k") =
        lineOctets "k" "u" ⟨"MD5", Hash.Algorithm.md5.digest [98]⟩ 1 ++
          lineOctets "k" "w" ⟨"MD5", Hash.Algorithm.md5.digest [98]⟩ 1 := by decide +kernel
  exact ⟨hfresh, hmeasurable, hleft.1, hleft.2, (files_afterAll hfresh hmeasurable).2⟩

/-! ## Late roots -/

/-- A bucket that starts with a letter is a file of neither form. -/
theorem no_form_of_letter (operations : List Operation) (key : String) (more : Bytes) :
    ¬ (ContentFile operations (bucketNames key) ([120] ++ more) ∨
      BucketFile (bucketNames key) ([120] ++ more)) := by
  rintro (⟨name, a, _, _, hnames⟩ | ⟨payloads, hne, hbytes, _⟩)
  · have hhead := congrArg List.head? hnames
    rw [bucketNames, List.head?_cons, List.head?_cons] at hhead
    exact absurd (Option.some.inj hhead) (by decide)
  · obtain ⟨payload, rest, rfl⟩ := List.exists_cons_of_ne_nil hne
    have hline : Encoding.Utf8.encode (Cache.Bucket.line payload) =
        10 :: Encoding.Utf8.encode (Cache.Bucket.checksum payload ++ '\t' :: payload) := rfl
    rw [List.flatMap_cons, hline] at hbytes
    exact absurd (List.cons.inj hbytes).1 (by decide)

/-- **Through a root that comes into being late** the first put leaves a file of neither form:
nothing was found at the root before, and below it there is a bucket of an old store behind. -/
theorem files_afterAll_late_root :
    (oldTree "store" "k" [120]).WellFormed ∧
      (oldTree "store" "k" [120]).lookUp (late "store").root = .error .noEntry ∧
      ∃ base names bytes,
        ((late "store").afterAll [.put ⟨"k", "u", [98], none⟩] (oldTree "store" "k" [120])).Leads
          (late "store").root base ∧
        ((late "store").afterAll [.put ⟨"k", "u", [98], none⟩] (oldTree "store" "k" [120])).get?
          (base ++ names) = some (.file bytes) ∧
        ¬ (ContentFile [.put ⟨"k", "u", [98], none⟩] names bytes ∨ BucketFile names bytes) := by
  have hname : Ordinary "store" := ⟨by decide, by decide, ⟨by decide, by decide⟩⟩
  have hnothing : FileTree.Modest [] 0 := ⟨rfl, Nat.le_refl _⟩
  obtain ⟨after, hput, hleads, hread⟩ := run_put_late hname "k" "u" [120] [98]
  have hafter : (late "store").afterAll [.put ⟨"k", "u", [98], none⟩] (oldTree "store" "k" [120]) =
      after := by
    have hrun := Operation.run_put_ok hput
    rw [afterAll, List.foldl_cons, List.foldl_nil, hrun]
  rw [hafter]
  obtain ⟨_, hfile⟩ := (FileTree.readFile_eq_ok_iff (leads_bucketPath hleads "k")).1 hread
  refine ⟨wellFormed_oldTree _ _ _, lookUp_late hname hnothing (by omega), _, _, _, hleads, hfile,
    ?_⟩
  exact no_form_of_letter _ _ _

end LockPrefetch.Store
