import LockPrefetch.Proofs.Cache.NewRoot
import LockPrefetch.Proofs.Integrity.Canonical

/-! # Which puts are accepted

Where the file tree refuses nothing (`Serves`), a put is accepted exactly if its token denotes the
digest of its content, and returns the canonical token of that digest, in whatever way its own
token is spelled. -/

set_option autoImplicit false

namespace LockPrefetch.Store

variable {store : Store} {tree : FileTree} {key url token : String} {data : Bytes}
  {declared : Option String} {digest : Digest}

/-- **The file tree refuses nothing** that storing content by a digest takes: neither the look,
nor laying the content down, nor adding the record to the bucket of the key. -/
def Serves (store : Store) (tree : FileTree) (key url : String) (data : Bytes) (digest : Digest) :
    Prop :=
  ∃ present mid after, store.hasContent tree digest = .ok present ∧
    (store.layDown digest data present).run tree = (.ok (), mid) ∧
    (store.appendRecord key url digest data.length).run mid = (.ok (), after)

/-- **A put is accepted exactly if its content is verified** with a digest that the file tree
serves. -/
theorem accepted_iff :
    (∃ sri after, (store.put key url data declared).run tree = (.ok sri, after)) ↔
      ∃ digest, verify key url data declared = .ok digest ∧
        store.Serves tree key url data digest := by
  constructor
  · rintro ⟨sri, after, hput⟩
    obtain ⟨digest, present, mid, hverify, hlook, hlay, hadd, _⟩ := run_put_eq_ok_iff.1 hput
    exact ⟨digest, hverify, present, mid, after, hlook, hlay, hadd⟩
  · rintro ⟨digest, hverify, present, mid, after, hlook, hlay, hadd⟩
    exact ⟨digest.token, after,
      run_put_eq_ok_iff.2 ⟨digest, present, mid, hverify, hlook, hlay, hadd, rfl⟩⟩

/-- **Below a new root the file tree serves every digest**, whatever the store was asked for. -/
theorem Made.serves {above rest : List String} {start : Location}
    (h : store.Made tree above rest start) (hof : digest.Of data)
    (hfits : store.Fits digest key) : store.Serves tree key url data digest := by
  have hverify : verify key url data (some digest.token) = .ok digest :=
    verify_eq_ok_iff.2 ⟨hof, Digest.parse_token hof.supported⟩
  obtain ⟨after, hput⟩ := h.run_put_met hverify hfits
  obtain ⟨found, hfound, hserves⟩ := accepted_iff.1 ⟨digest.token, after, hput⟩
  rw [hverify] at hfound
  rwa [Except.ok.inj hfound]

/-- A put with a token is accepted exactly if the token denotes the digest of the content. -/
theorem accepted_iff_denotes
    (hserves : ∀ d, Digest.parse token = .ok d → d.Of data → store.Serves tree key url data d) :
    (∃ sri after, (store.put key url data (some token)).run tree = (.ok sri, after)) ↔
      ∃ d, Digest.parse token = .ok d ∧ d.Of data := by
  rw [accepted_iff]
  constructor
  · rintro ⟨d, hverify, _⟩
    obtain ⟨hof, hdeclares⟩ := verify_eq_ok_iff.1 hverify
    exact ⟨d, hdeclares, hof⟩
  · rintro ⟨d, hparse, hof⟩
    exact ⟨d, verify_eq_ok_iff.2 ⟨hof, hparse⟩, hserves d hparse hof⟩

/-- What a put returns is the canonical token of the digest that its own token denotes. -/
theorem canonical_of_put {sri : String} {after : FileTree}
    (h : (store.put key url data (some token)).run tree = (.ok sri, after)) :
    ∃ d, Digest.parse token = .ok d ∧ sri = d.token ∧ Digest.Canonical sri ∧
      Digest.parse sri = .ok d := by
  obtain ⟨d, _, _, hverify, _, _, _, rfl⟩ := run_put_eq_ok_iff.1 h
  obtain ⟨hof, hdeclares⟩ := verify_eq_ok_iff.1 hverify
  have hparse := Digest.parse_token hof.supported
  exact ⟨d, hdeclares, rfl, (Digest.canonical_iff_token hparse).2 rfl, hparse⟩

/-- **Tokens are read back, and decide what is stored.** A digest is computed and read back from
its token under the name as it is written, whatever options the token is given, and reading a
digest that was read from its own token gives it again. A put is accepted exactly if its token
denotes the digest of the content, and returns the canonical token of that digest. -/
theorem accepts_denoted :
    (∀ (a : Hash.Algorithm) (name : String) (data : Bytes) (options : List Char),
      name.toList.map Char.toLower = a.name.toList → Digest.Options options →
        ∃ d, Digest.compute data name = .ok d ∧
          Digest.parse (d.token ++ String.ofList options) = .ok ⟨name, a.digest data⟩) ∧
    (∀ token d, Digest.parse token = .ok d → Digest.parse d.token = .ok d) ∧
    ∀ (store : Store) (tree : FileTree) (key url : String) (data : Bytes) (token : String),
      (∀ d, Digest.parse token = .ok d → d.Of data → store.Serves tree key url data d) →
        ((∃ sri after, (store.put key url data (some token)).run tree = (.ok sri, after)) ↔
          ∃ d, Digest.parse token = .ok d ∧ d.Of data) ∧
        ∀ sri after, (store.put key url data (some token)).run tree = (.ok sri, after) →
          ∃ d, Digest.parse token = .ok d ∧ sri = d.token ∧ Digest.Canonical sri ∧
            Digest.parse sri = .ok d := by
  refine ⟨?_, fun token d hparse => Digest.parse_token (Digest.supported_of_parse hparse), ?_⟩
  · intro a name data options hname hoptions
    have hof : (⟨name, a.digest data⟩ : Digest).Of data :=
      ⟨a, Hash.Algorithm.ofName?_eq_some_iff.2 hname, rfl⟩
    exact ⟨_, Digest.compute_eq_ok_iff.2 ⟨rfl, hof⟩,
      Digest.parse_token_options hof.supported hoptions⟩
  · intro store tree key url data token hserves
    exact ⟨accepted_iff_denotes hserves, fun _ _ => canonical_of_put⟩

/-- On an empty tree `b` is accepted by an odd token, and its canonical one is returned. -/
theorem accepts_denoted_odd_token :
    "Md5".toList.map Char.toLower = Hash.Algorithm.md5.name.toList ∧ Digest.Options ['?', 'x'] ∧
      (∃ d, Digest.compute [98] "Md5" = .ok d ∧
        Digest.parse (d.token ++ String.ofList ['?', 'x']) =
          .ok ⟨"Md5", Hash.Algorithm.md5.digest [98]⟩) ∧
      (∀ d, Digest.parse "MD5-kutf/uauL+w61xx3dTFXjx==?x" = .ok d → d.Of [98] →
        (relative ["store"]).Serves FileTree.empty "k" "u" [98] d) ∧
      ¬ Digest.Canonical "MD5-kutf/uauL+w61xx3dTFXjx==?x" ∧
      Digest.parse letterDigest.token = .ok letterDigest ∧
      ∃ after, ((relative ["store"]).put "k" "u" [98]
        (some "MD5-kutf/uauL+w61xx3dTFXjx==?x")).run FileTree.empty =
          (.ok "MD5-kutf/uauL+w61xx3dTFXjw==", after) := by
  have hname : "Md5".toList.map Char.toLower = Hash.Algorithm.md5.name.toList := by decide
  have hoptions : Digest.Options ['?', 'x'] := Or.inr rfl
  have htoken : letterDigest.token = "MD5-kutf/uauL+w61xx3dTFXjw==" := by decide +kernel
  have hserves : ∀ d, Digest.parse "MD5-kutf/uauL+w61xx3dTFXjx==?x" = .ok d → d.Of [98] →
      (relative ["store"]).Serves FileTree.empty "k" "u" [98] d := by
    intro d _ hof
    have hmodest : FileTree.Modest ["store"] 6 := ⟨by decide, by decide⟩
    obtain ⟨_, _, _, hmade⟩ := (new_relative (by decide) hmodest (by decide)).made
    exact hmade.serves hof (fits_of_short (by decide) (by decide) hof.supported "k")
  obtain ⟨hreturns, hcanonical⟩ := accepts_denoted.2.2 _ _ "k" "u" [98] _ hserves
  obtain ⟨sri, after, hput⟩ := hreturns.2 ⟨_, parse_letterDigest, of_letterDigest⟩
  refine ⟨hname, hoptions, accepts_denoted.1 .md5 "Md5" [98] ['?', 'x'] hname hoptions, hserves, ?_,
    accepts_denoted.2.1 _ _ parse_letterDigest, after, ?_⟩
  · rw [Digest.canonical_iff_token parse_letterDigest, htoken]
    decide
  · obtain ⟨d, hparse, rfl, _, _⟩ := hcanonical sri after hput
    rw [parse_letterDigest] at hparse
    rw [hput, ← Except.ok.inj hparse, htoken]

end LockPrefetch.Store
