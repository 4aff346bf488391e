import LockPrefetch.Encoding.Utf8.RoundTrip
import LockPrefetch.Proofs.FileTree.Walk
import LockPrefetch.Proofs.Integrity.Token

/-! # Where contents and records lie

Below the root of a store, content lies at `contentNames` of its digest and the records of a
key at `bucketNames` of the key. The names are plain ones, whatever the root: none goes up.
Distinct digests have distinct places (`contentNames_inj`), keys share a place only if their
hashes are the same (`bucketNames_inj`), and the path of a bucket is as long for one key as for
another (`admissible_bucket`). -/

set_option autoImplicit false

namespace LockPrefetch

/-! ## Joining paths -/

namespace Path

/-- A name that is one name of a path and does not go up. -/
structure Plain (name : String) : Prop where
  nonempty : name ≠ ""
  noSlash : '/' ∉ name.toList
  noDot : '.' ∉ name.toList

theorem Plain.ne_up {name : String} (h : Plain name) : name ≠ ".." := by
  rintro rfl
  exact h.noDot (by decide)

/-- A name without slashes is joined as it is, unless it is a dot. -/
theorem join_name {name : String} (hne : name ≠ "") (hdot : name ≠ ".")
    (hslash : '/' ∉ name.toList) (p : Path) : p.join name = ⟨p.anchor, p.names ++ [name]⟩ := by
  have hanchor : anchorOf name.toList = .workingDirectory := by
    unfold anchorOf
    split
    · rename_i heq
      exact absurd (by simp [heq]) hslash
    · rename_i heq
      exact absurd (by simp [heq]) hslash
    · rename_i heq
      exact absurd (by simp [heq]) hslash
    · rfl
  have hnames : namesOf name = [name] := by
    simp [namesOf, Text.pieces_of_not_mem hslash, hne, hdot]
  simp [join, ofString, hanchor, hnames]

theorem join_plain {name : String} (h : Plain name) (p : Path) :
    p.join name = ⟨p.anchor, p.names ++ [name]⟩ := by
  refine join_name h.nonempty ?_ h.noSlash p
  rintro rfl
  exact h.noDot (by decide)

/-- A name made of a few characters that are plain. -/
theorem plain_ofList {text : List Char} (hne : text ≠ [])
    (h : ∀ c ∈ text, c ≠ '/' ∧ c ≠ '.') : Plain (String.ofList text) where
  nonempty := by simpa using hne
  noSlash := by
    rw [String.toList_ofList]
    exact fun hmem => (h _ hmem).1 rfl
  noDot := by
    rw [String.toList_ofList]
    exact fun hmem => (h _ hmem).2 rfl

end Path

namespace Cache

/-! ## Names -/

/-- The names below two directories for the first two pairs of digits. -/
def shards (hex : String) : List String :=
  [String.ofList (hex.toList.take 2), String.ofList ((hex.toList.drop 2).take 2),
    String.ofList (hex.toList.drop 4)]

/-- The names that lead to content from the root of its store. -/
def contentNames (digest : Digest) : List String :=
  contentDirectory :: digest.name :: shards digest.hex

/-- The names that lead to the records of a key from the root of their store. -/
def bucketNames (key : String) : List String := indexDirectory :: shards (keyHash key)

@[simp] theorem length_contentNames (digest : Digest) : (contentNames digest).length = 5 := rfl

@[simp] theorem length_bucketNames (key : String) : (bucketNames key).length = 4 := rfl

theorem contentNames_ne_nil (digest : Digest) : contentNames digest ≠ [] := nofun

theorem bucketNames_ne_nil (key : String) : bucketNames key ≠ [] := nofun

theorem contentNames_ne_bucketNames (digest : Digest) (key : String) :
    contentNames digest ≠ bucketNames key := by
  intro h
  have := congrArg List.length h
  simp at this

/-- The pieces of a digest are plain names. -/
theorem plain_of_mem_shards {data : Bytes} (h : 3 ≤ data.length) :
    ∀ name ∈ shards (Hex.encode data), Path.Plain name := by
  have hlength := Hex.length_digits data
  have hplain : ∀ text : List Char, (∀ c ∈ text, c ∈ Hex.digits data) → text ≠ [] →
      Path.Plain (String.ofList text) := by
    intro text hsub hne
    refine Path.plain_ofList hne fun c hc => ?_
    have := Hex.plain_of_mem_digits (hsub c hc)
    exact ⟨this.1, this.2.1⟩
  intro name hname
  simp only [shards, Hex.encode, String.toList_ofList, List.mem_cons, List.not_mem_nil,
    or_false] at hname
  rcases hname with rfl | rfl | rfl
  · refine hplain _ (fun c hc => List.mem_of_mem_take hc) (List.ne_nil_of_length_pos ?_)
    rw [List.length_take]
    omega
  · refine hplain _ (fun c hc => List.mem_of_mem_drop (List.mem_of_mem_take hc))
      (List.ne_nil_of_length_pos ?_)
    rw [List.length_take, List.length_drop]
    omega
  · refine hplain _ (fun c hc => List.mem_of_mem_drop hc) (List.ne_nil_of_length_pos ?_)
    rw [List.length_drop]
    omega

theorem sharded_eq {data : Bytes} (h : 3 ≤ data.length) (base : Path) :
    sharded base (Hex.encode data) = ⟨base.anchor, base.names ++ shards (Hex.encode data)⟩ := by
  have hplain := plain_of_mem_shards h
  simp only [shards, List.mem_cons, List.not_mem_nil, or_false, forall_eq_or_imp, forall_eq]
    at hplain
  obtain ⟨hfirst, hsecond, hrest⟩ := hplain
  simp only [sharded, Path.join_plain hfirst, Path.join_plain hsecond, Path.join_plain hrest,
    shards, List.append_assoc, List.cons_append, List.nil_append]

/-- Two digests with the same pieces are the same. -/
theorem shards_inj {a b : String} (h : shards a = shards b) : a = b := by
  simp only [shards, List.cons.injEq, String.ofList_inj, and_true] at h
  obtain ⟨hfirst, hsecond, hrest⟩ := h
  refine String.toList_inj.1 ?_
  have hsplit : ∀ s : List Char, s = s.take 2 ++ ((s.drop 2).take 2 ++ s.drop 4) := by
    intro s
    have hlast : s.drop 4 = (s.drop 2).drop 2 := by rw [List.drop_drop]
    rw [hlast, List.take_append_drop, List.take_append_drop]
  rw [hsplit a.toList, hsplit b.toList, hfirst, hsecond, hrest]

/-! ## Buckets -/

/-- The octets of a key's digest. -/
def keyDigest (key : String) : Bytes :=
  Hash.Algorithm.sha256.digest (Encoding.Utf8.encode key.toList)

theorem keyHash_eq (key : String) : keyHash key = Hex.encode (keyDigest key) := rfl

theorem length_keyDigest (key : String) : (keyDigest key).length = 32 :=
  Hash.Algorithm.length_digest _ _

theorem plain_indexDirectory : Path.Plain indexDirectory where
  nonempty := by decide
  noSlash := by decide
  noDot := by decide

theorem plain_contentDirectory : Path.Plain contentDirectory where
  nonempty := by decide
  noSlash := by decide
  noDot := by decide

theorem bucketPath_eq (root : Path) (key : String) :
    bucketPath root key = ⟨root.anchor, root.names ++ bucketNames key⟩ := by
  rw [bucketPath, keyHash_eq, sharded_eq (by rw [length_keyDigest]; omega),
    Path.join_plain plain_indexDirectory, bucketNames, keyHash_eq]
  simp

theorem straight_bucketNames (key : String) : ".." ∉ bucketNames key := by
  intro hmem
  rcases List.mem_cons.1 hmem with heq | hmem
  · exact plain_indexDirectory.ne_up heq.symm
  · rw [keyHash_eq] at hmem
    exact (plain_of_mem_shards (by rw [length_keyDigest]; omega) _ hmem).ne_up rfl

/-- **Keys share a bucket exactly if their hashes are the same.** -/
theorem bucketNames_inj {key other : String} :
    bucketNames key = bucketNames other ↔ keyHash key = keyHash other := by
  constructor
  · intro h
    exact shards_inj (List.cons.inj h).2
  · intro h
    rw [bucketNames, bucketNames, h]

/-! ## Contents -/

theorem plain_of_supported {digest : Digest} (h : digest.Supported) : Path.Plain digest.name := by
  obtain ⟨a, hname, _⟩ := h
  refine ⟨?_, ?_, ?_⟩
  · intro hempty
    have hlower := Hash.Algorithm.name_of_ofName? hname
    rw [hempty] at hlower
    cases a <;> simp [Hash.Algorithm.name] at hlower
  · exact Hash.Algorithm.not_mem_of_ofName? hname (by decide)
  · exact Hash.Algorithm.not_mem_of_ofName? hname (by decide)

theorem length_octets {digest : Digest} (h : digest.Supported) : 3 ≤ digest.octets.length := by
  obtain ⟨a, _, hlength⟩ := h
  have := a.size_pos
  omega

theorem contentPath_eq (root : Path) {digest : Digest} (h : digest.Supported) :
    contentPath root digest.name digest.hex =
      ⟨root.anchor, root.names ++ contentNames digest⟩ := by
  rw [contentPath, Digest.hex, sharded_eq (length_octets h), Path.join_plain plain_contentDirectory,
    Path.join_plain (plain_of_supported h), contentNames, Digest.hex]
  simp

theorem straight_contentNames {digest : Digest} (h : digest.Supported) :
    ".." ∉ contentNames digest := by
  intro hmem
  rcases List.mem_cons.1 hmem with heq | hmem
  · exact plain_contentDirectory.ne_up heq.symm
  · rcases List.mem_cons.1 hmem with heq | hmem
    · exact (plain_of_supported h).ne_up heq.symm
    · rw [Digest.hex] at hmem
      exact (plain_of_mem_shards (length_octets h) _ hmem).ne_up rfl

/-- **Distinct digests have distinct places.** -/
theorem contentNames_inj {d e : Digest} : contentNames d = contentNames e ↔ d = e := by
  constructor
  · intro h
    obtain ⟨_, hrest⟩ := List.cons.inj h
    obtain ⟨hname, hshards⟩ := List.cons.inj hrest
    exact Digest.eq_of_fields hname (Hex.encode_inj (shards_inj hshards))
  · rintro rfl
    rfl

/-- No bucket stands on the way to content. -/
theorem bucketNames_not_prefix (digest : Digest) (key : String) :
    ¬ bucketNames key <+: contentNames digest := by
  rintro ⟨rest, hrest⟩
  have hhead := congrArg List.head? hrest
  simp [bucketNames, contentNames, indexDirectory, contentDirectory] at hhead

theorem bucket_ne_content (base : Location) (digest : Digest) (key : String) :
    base ++ bucketNames key ≠ base ++ contentNames digest := by
  intro heq
  exact contentNames_ne_bucketNames digest key (List.append_cancel_left heq).symm

/-- The names of a file below the root of a store. -/
inductive Leaf : List String → Prop
  | content (digest : Digest) : Leaf (contentNames digest)
  | bucket (key : String) : Leaf (bucketNames key)

theorem Leaf.ne_nil {names : List String} (h : Leaf names) : names ≠ [] := by
  cases h with
  | content digest => exact contentNames_ne_nil digest
  | bucket key => exact bucketNames_ne_nil key

/-- **No file of a store stands on the way to another one**, nor where a directory has to be. -/
theorem Leaf.not_on_way {names other : List String} (h : Leaf names) (h' : Leaf other)
    (base : Location) : ¬ base ++ names <+: (base ++ other).dropLast := by
  rw [List.dropLast_append_of_ne_nil h'.ne_nil, List.prefix_append_right_inj]
  intro hway
  have hlength := hway.length_le
  rw [List.length_dropLast] at hlength
  -- content is one name longer than a bucket, so only a bucket can be on the way to content
  cases h with
  | content digest =>
      cases h' with
      | content _ => simp at hlength
      | bucket _ => simp at hlength
  | bucket key =>
      cases h' with
      | content digest =>
          exact bucketNames_not_prefix digest key (hway.trans (List.dropLast_prefix _))
      | bucket _ => simp at hlength

theorem bucket_not_on_way (base : Location) (digest : Digest) (key : String) :
    ¬ base ++ bucketNames key <+: (base ++ contentNames digest).dropLast :=
  (Leaf.bucket key).not_on_way (.content digest) base

/-! ## Lengths -/

open FileTree (octets octets_ofList octets_append octets_intercalate Admissible)

/-- The octets of the pieces of a digest. -/
theorem octets_shards {data : Bytes} (h : 2 ≤ data.length) :
    (shards (Hex.encode data)).map octets = [2, 2, 2 * data.length - 4] := by
  have hlength := Hex.length_digits data
  have hascii : ∀ text : List Char, (∀ c ∈ text, c ∈ Hex.digits data) →
      octets (String.ofList text) = text.length := by
    intro text hsub
    exact octets_ofList fun c hc => (Hex.plain_of_mem_digits (hsub c hc)).2.2.2
  simp only [shards, Hex.encode, String.toList_ofList, List.map_cons, List.map_nil]
  rw [hascii _ fun c hc => List.mem_of_mem_take hc,
    hascii _ fun c hc => List.mem_of_mem_drop (List.mem_of_mem_take hc),
    hascii _ fun c hc => List.mem_of_mem_drop hc]
  simp only [List.length_take, List.length_drop, hlength, List.cons.injEq, and_true]
  omega

/-- No piece of a digest holds a NUL character. -/
theorem noNul_shards (data : Bytes) :
    ((shards (Hex.encode data)).any fun name => name.toList.any (·.toNat == 0)) = false := by
  have hdigits : ∀ c ∈ Hex.digits data, (c.toNat == 0) = false := by
    intro c hc
    have := (Hex.plain_of_mem_digits hc).2.2.1
    simp only [beq_eq_false_iff_ne, ne_eq]
    omega
  simp only [shards, Hex.encode, String.toList_ofList, List.any_cons, List.any_nil, Bool.or_false,
    Bool.or_eq_false_iff, List.any_eq_false]
  refine ⟨fun c hc => ?_, fun c hc => ?_, fun c hc => ?_⟩
  · simp [hdigits c (List.mem_of_mem_take hc)]
  · simp [hdigits c (List.mem_of_mem_drop (List.mem_of_mem_take hc))]
  · simp [hdigits c (List.mem_of_mem_drop hc)]

theorem octets_bucketNames (key : String) : (bucketNames key).map octets = [8, 2, 2, 60] := by
  have hindex : octets indexDirectory = 8 := by decide
  rw [bucketNames, keyHash_eq, List.map_cons, hindex,
    octets_shards (by rw [length_keyDigest]; omega), length_keyDigest]

theorem short_bucketNames (key : String) :
    ∀ name ∈ bucketNames key, octets name ≤ FileTree.nameLimit := by
  intro name hname
  have hmem := List.mem_map_of_mem (f := octets) hname
  rw [octets_bucketNames] at hmem
  simp only [List.mem_cons, List.not_mem_nil, or_false] at hmem
  unfold FileTree.nameLimit
  omega

/-- No name of a bucket holds a NUL character. -/
theorem noNul_bucketNames (key : String) :
    ((bucketNames key).any fun name => name.toList.any (·.toNat == 0)) = false := by
  have hindex : (indexDirectory.toList.any (·.toNat == 0)) = false := by decide
  rw [bucketNames, List.any_cons, hindex, keyHash_eq, noNul_shards]
  rfl

/-- **A root that takes the bucket of one key takes that of any other.** -/
theorem admissible_bucket {root : Path} {key : String} (other : String)
    (h : Admissible (bucketPath root key)) : Admissible (bucketPath root other) := by
  rw [bucketPath_eq] at h ⊢
  obtain ⟨hnul, hshort⟩ := h
  refine ⟨?_, ?_⟩
  · rw [List.any_append, Bool.or_eq_false_iff] at hnul ⊢
    exact ⟨hnul.1, noNul_bucketNames other⟩
  · -- the two texts are as long as each other, name by name
    have hsame : (root.names ++ bucketNames key).map octets =
        (root.names ++ bucketNames other).map octets := by
      rw [List.map_append, List.map_append, octets_bucketNames, octets_bucketNames]
    have htext : ∀ k, octets (Path.text ⟨root.anchor, root.names ++ bucketNames k⟩) =
        octets root.anchor.text + octets ("/".intercalate (root.names ++ bucketNames k)) :=
      fun k => FileTree.octets_text root.anchor (by simp [bucketNames])
    rw [htext] at hshort ⊢
    rwa [← octets_intercalate hsame]

end Cache

end LockPrefetch
