import LockPrefetch.Proofs.Cache.Interleaving
import LockPrefetch.Proofs.Cache.NewRoot

/-! # Puts that come to an end

Where nothing is in the way of the root, no step of a put is refused, whatever other puts have done
since its last one: they lay down files in their own places only, and none of these is in the way
of another one (`Made.put_step`). So after three turns each all puts have ended as their
verification says, in whatever order the turns were taken (`complete_of_turns`).

The main statement is `entries_interleaved`: at any time what is seen can be read, and in the end
no record is lost and none is there twice. -/

set_option autoImplicit false

namespace LockPrefetch.Store

open FileTree (octets)
open Cache (contentNames bucketNames Leaf)

variable {store : Store} {tree after : FileTree} {base start : Location} {above rest : List String}
  {put : Put} {progress : Progress} {puts : List Put} {session : Session} {digest : Digest}
  {key url : String} {data : Bytes}

/-! ## No step is refused -/

/-- Content is laid down below a root with nothing in its way, whatever the look has found. -/
theorem Made.run_layDown (h : store.Made tree above rest start) (hof : digest.Of data)
    (hfits : octets (store.contentPath digest).text ≤ FileTree.pathLimit) (present : Bool) :
    ∃ after, (store.layDown digest data present).run tree = (.ok (), after) ∧
      store.Orderly (start ++ rest) tree after := by
  cases present with
  | true => exact ⟨tree, rfl, Orderly.refl h.placed⟩
  | false =>
      have hfree := h.free_content hof.supported hfits
      obtain ⟨after, hrun, hfiled⟩ := run_placeContent_free h.names hof.supported
        (h.rooted.reaches hfree.admissible.above) hfree data
      rw [← List.append_assoc] at hfiled
      refine ⟨after, ?_, h.placed.orderly_file hfiled (Or.inl ⟨digest, hof, rfl⟩)⟩
      rw [layDown, if_neg (by simp), hrun]

/-- A record is added below a root with nothing in its way. -/
theorem Made.run_appendRecord (h : store.Made tree above rest start)
    (hfits : octets (store.bucketPath key).text ≤ FileTree.pathLimit) (url : String)
    (digest : Digest) (size : Nat) :
    ∃ after, (store.appendRecord key url digest size).run tree = (.ok (), after) ∧
      store.Orderly (start ++ rest) tree after := by
  have hfree := h.free_bucket hfits
  obtain ⟨after, hrun, hfiled, _⟩ := run_appendRecord_free h.names
    (h.rooted.reaches hfree.admissible.above) hfree url digest size
  rw [← List.append_assoc] at hfiled
  exact ⟨after, hrun, h.placed.orderly_file hfiled (Or.inr ⟨key, rfl⟩)⟩

/-- **A put that was refused nothing**: it goes by the digest that its content was verified with,
and it has ended as the verification says. -/
def Unrefused (put : Put) : Progress → Prop
  | .waiting => True
  | .looked digest _ => verify put.key put.url put.data put.declared = .ok digest
  | .laid digest => verify put.key put.url put.data put.declared = .ok digest
  | .ended result =>
    result = (verify put.key put.url put.data put.declared).map Digest.token

/-- The paths that a put needs are not too long. -/
def Put.Fits (store : Store) (put : Put) : Prop :=
  ∀ digest, verify put.key put.url put.data put.declared = .ok digest → store.Fits digest put.key

/-- **No step is refused** where nothing is in the way of the root. -/
theorem Made.put_step (h : store.Made tree above rest start) (hfits : put.Fits store)
    (hstate : Unrefused put progress) :
    ∃ next after, put.step store progress tree = (next, after) ∧
      store.Orderly (start ++ rest) tree after ∧ Unrefused put next := by
  have hstay := Orderly.refl h.placed
  cases progress with
  | waiting =>
      rw [Put.step_waiting]
      cases hverify : verify put.key put.url put.data put.declared with
      | error failure =>
          refine ⟨_, tree, rfl, hstay, ?_⟩
          show _ = (verify put.key put.url put.data put.declared).map Digest.token
          rw [hverify]
          rfl
      | ok digest =>
          have hd := (verify_eq_ok_iff.1 hverify).1.supported
          obtain ⟨present, hlook⟩ := hasContent_free h.names hd h.rooted
            (h.free_content hd (hfits digest hverify).content)
          rw [Progress.following_ok, hlook]
          exact ⟨_, tree, rfl, hstay, hverify⟩
  | looked digest present =>
      -- another put may have laid the content down since the look; it is laid down once more then
      have hverify : verify put.key put.url put.data put.declared = .ok digest := hstate
      obtain ⟨after, hrun, hafter⟩ := h.run_layDown (verify_eq_ok_iff.1 hverify).1
        (hfits digest hverify).content present
      rw [Put.step_looked hrun]
      exact ⟨_, after, rfl, hafter, hverify⟩
  | laid digest =>
      have hverify : verify put.key put.url put.data put.declared = .ok digest := hstate
      obtain ⟨after, hrun, hafter⟩ := h.run_appendRecord (hfits digest hverify).bucket put.url
        digest put.data.length
      rw [Put.step_laid hrun]
      refine ⟨_, after, rfl, hafter, ?_⟩
      show _ = (verify put.key put.url put.data put.declared).map Digest.token
      rw [hverify]
      rfl
  | ended result => exact ⟨_, tree, rfl, hstay, hstate⟩

/-- **A session in which nothing was refused**, on a root with nothing in its way. -/
structure Smooth (store : Store) (above rest : List String) (start : Location)
    (session : Session) : Prop where
  made : store.Made session.tree above rest start
  fits : ∀ task ∈ session.tasks, task.1.Fits store
  unrefused : ∀ task ∈ session.tasks, Unrefused task.1 task.2

theorem Smooth.step (h : Smooth store above rest start session) (turn : Nat) :
    Smooth store above rest start (session.step store turn) := by
  unfold Session.step
  cases htask : session.tasks[turn]? with
  | none => exact h
  | some task =>
      obtain ⟨put, progress⟩ := task
      have hmem : (put, progress) ∈ session.tasks := List.mem_of_getElem? htask
      obtain ⟨next, after, hrun, hafter, hnext⟩ :=
        h.made.put_step (h.fits _ hmem) (h.unrefused _ hmem)
      simp only [hrun]
      -- the tree has changed for all tasks, but how far they are only for the one at its turn
      refine ⟨h.made.mono hafter, fun task hin => ?_, fun task hin => ?_⟩
      · rcases List.mem_or_eq_of_mem_set hin with hin | rfl
        · exact h.fits task hin
        · exact h.fits (put, progress) hmem
      · rcases List.mem_or_eq_of_mem_set hin with hin | rfl
        · exact h.unrefused task hin
        · exact hnext

theorem Smooth.run (h : Smooth store above rest start session) (schedule : List Nat) :
    Smooth store above rest start (session.run store schedule) := by
  induction schedule generalizing session with
  | nil => exact h
  | cons turn rest ih => exact ih (h.step turn)

theorem Made.smooth_start (h : store.Made tree above rest start)
    (hfits : ∀ put ∈ puts, put.Fits store) :
    Smooth store above rest start (.start puts tree) := by
  refine ⟨h, fun task htask => ?_, fun task htask => ?_⟩
  · obtain ⟨put, hput, rfl⟩ := List.mem_map.1 htask
    exact hfits put hput
  · obtain ⟨put, _, rfl⟩ := List.mem_map.1 htask
    trivial

/-! ## The end -/

/-- What was refused nothing is complete once it has ended. -/
theorem Smooth.complete (h : Smooth store above rest start session)
    (hended : ∀ task ∈ session.tasks, ∃ result, task.2 = .ended result) : Complete session := by
  intro task htask
  obtain ⟨result, hresult⟩ := hended task htask
  have hstate := h.unrefused task htask
  rw [hresult] at hstate ⊢
  exact congrArg Progress.ended hstate

/-- **After three turns each, every session is complete** that starts with nothing in the way. -/
theorem complete_of_turns (h : store.Made tree above rest start)
    (hfits : ∀ put ∈ puts, put.Fits store) {schedule : List Nat}
    (hturns : ∀ turn < puts.length, 3 ≤ schedule.count turn) :
    Complete (interleaved store puts tree schedule) :=
  ((h.smooth_start hfits).run schedule).complete (ended_of_turns hturns)

/-- Entries are returned below such a root, also as long as no put has returned. -/
theorem Consistent.entries_made (h : Consistent store base puts session)
    (hmade : store.Made session.tree above rest start)
    (hfits : octets (store.bucketPath key).text ≤ FileTree.pathLimit) :
    ∃ found, store.entries session.tree key = .ok found := by
  by_cases hany : returned session.tasks = []
  · obtain ⟨ledger, hholds, hperm⟩ := h.ledger
    obtain rfl : ledger = [] := by
      rw [hany] at hperm
      exact List.map_eq_nil_iff.1 hperm.eq_nil
    -- nothing is recorded, so that no bucket is there
    have hlook := (hmade.free_bucket hfits).lookUp hmade.rooted
    rw [← bucketPath_append hmade.names] at hlook
    rcases hlook with ⟨node, hfound⟩ | hmissing
    · exfalso
      obtain ⟨place, hlocate, hnode⟩ := FileTree.lookUp_eq_ok_iff.1 hfound
      obtain rfl := (leads_bucketPath hholds.leads key).locate_eq hlocate
      cases node with
      | directory => exact hholds.plain _ (.bucket key) hnode
      | file bytes =>
          obtain ⟨p, hp, _⟩ := hholds.bucket_of_file hnode
          exact List.not_mem_nil hp
    · exact ⟨[], entries_of_missing hmissing⟩
  · exact h.entries_returned hany key

/-- A root with nothing in its way can be made where nothing stands yet. -/
theorem Fresh.made (h : store.Fresh base tree) (hway : store.Accessible tree above rest start) :
    store.Made tree above rest start where
  toAccessible := hway
  placed := by
    have hleads : tree.Leads store.root (start ++ rest) :=
      ⟨above, rest, start, hway.names, hway.straight, hway.rooted.walk, rfl⟩
    rw [h.leads.unique hleads]
    exact h.vacant_root.placed

/-- **Puts that take turns lose nothing and never dangle.** On a tree where nothing stood at the
root, and with any schedule: each entry that is returned points to content that can be read, and the
entries of a key are the records of the puts that have returned, each once; entries are returned
once any put has. In the end the entries are the records of all puts, and the content files those of
all puts, whatever the schedule was. If nothing is in the way of the root, the end comes with three
turns for each put, and entries are returned for every key. -/
theorem entries_interleaved (h : store.Fresh base tree)
    (hsize : ∀ put ∈ puts, put.data.Measurable) (schedule : List Nat) :
    (∀ key found, store.entries (interleaved store puts tree schedule).tree key = .ok found →
      (∀ entry ∈ found, ∃ token data, entry.integrity = some token ∧
        store.read (interleaved store puts tree schedule).tree token = .ok data) ∧
      found.Perm (recordsOf (returned (interleaved store puts tree schedule).tasks) key) ∧
      (Complete (interleaved store puts tree schedule) → found.Perm (recordsOf puts key))) ∧
    (returned (interleaved store puts tree schedule).tasks ≠ [] → ∀ key, ∃ found,
      store.entries (interleaved store puts tree schedule).tree key = .ok found) ∧
    (Complete (interleaved store puts tree schedule) → ∀ names,
      ((∃ bytes, (interleaved store puts tree schedule).tree.get?
          (base ++ Cache.contentDirectory :: names) = some (.file bytes)) ↔
        ∃ put ∈ puts, ∃ digest, verify put.key put.url put.data put.declared = .ok digest ∧
          Cache.contentDirectory :: names = contentNames digest)) ∧
    ∀ above rest start, store.Accessible tree above rest start →
      (∀ put ∈ puts, ∀ digest, verify put.key put.url put.data put.declared = .ok digest →
        store.Fits digest put.key) →
      (∀ turn < puts.length, 3 ≤ schedule.count turn) →
        Complete (interleaved store puts tree schedule) ∧
          ∀ key, octets (store.bucketPath key).text ≤ FileTree.pathLimit → ∃ found,
            store.entries (interleaved store puts tree schedule).tree key = .ok found ∧
              found.Perm (recordsOf puts key) := by
  have hnow : Consistent store base puts (interleaved store puts tree schedule) :=
    (consistent_start h puts).run hsize schedule
  have hlast : Complete (interleaved store puts tree schedule) → ∀ key found,
      store.entries (interleaved store puts tree schedule).tree key = .ok found →
        found.Perm (recordsOf puts key) := by
    intro hcomplete key found hfound
    have hperm := hnow.entries_perm hfound
    rwa [recordsOf_returned hcomplete, hnow.same] at hperm
  refine ⟨fun key found hfound => ⟨hnow.read_entry hfound, hnow.entries_perm hfound,
    fun hcomplete => hlast hcomplete key found hfound⟩, hnow.entries_returned, hnow.content_iff, ?_⟩
  intro above rest start hway hfits hturns
  have hmade := h.made hway
  have hcomplete := complete_of_turns hmade hfits hturns
  refine ⟨hcomplete, fun key hkey => ?_⟩
  have hsmooth := (hmade.smooth_start hfits).run schedule
  obtain ⟨found, hfound⟩ := hnow.entries_made hsmooth.made hkey
  exact ⟨found, hfound, hlast hcomplete key found hfound⟩

/-- Two puts of one content under one key, both of which find it missing, and one whose content is
not what it is declared to be. -/
def crowd : List Put :=
  [⟨"k", "u", [98], none⟩, ⟨"k", "v", [98], none⟩,
    ⟨"l", "w", [97], some "md5-kutf/uauL+w61xx3dTFXjw=="⟩]

/-- They take turns on a store that is missing together with the directory above it, and nothing
is lost. -/
theorem entries_interleaved_crowd :
    (relative ["cache", "store"]).Fresh ["", "cache", "store"] FileTree.empty ∧
      (∀ put ∈ crowd, put.data.Measurable) ∧
      (relative ["cache", "store"]).Accessible FileTree.empty [] ["cache", "store"] [""] ∧
      (∀ put ∈ crowd, ∀ digest, verify put.key put.url put.data put.declared = .ok digest →
        (relative ["cache", "store"]).Fits digest put.key) ∧
      (∀ turn < crowd.length, 3 ≤ [0, 1, 1, 0, 2, 1, 0, 2, 2].count turn) ∧
      Complete (interleaved (relative ["cache", "store"]) crowd FileTree.empty
        [0, 1, 1, 0, 2, 1, 0, 2, 2]) ∧
      ∃ found,
        (relative ["cache", "store"]).entries (interleaved (relative ["cache", "store"]) crowd
          FileTree.empty [0, 1, 1, 0, 2, 1, 0, 2, 2]).tree "k" = .ok found ∧
        found.Perm [.stored "k" "u" (defaultDigest [98]).token 1,
          .stored "k" "v" (defaultDigest [98]).token 1] := by
  have hfresh : (relative ["cache", "store"]).Fresh ["", "cache", "store"] FileTree.empty :=
    fresh_relative (by decide) (by decide)
  have hsize : ∀ put ∈ crowd, put.data.Measurable := by
    intro put hput
    refine Bytes.measurable_of_lt ?_
    have hshort : ∀ put ∈ crowd, put.data.length = 1 := by decide
    rw [hshort put hput]
    decide
  have hmodest : FileTree.Modest ["cache", "store"] 20 := ⟨by decide, by decide⟩
  have hway : (relative ["cache", "store"]).Accessible FileTree.empty [] ["cache", "store"] [""] :=
    accessible_relative (by decide) (by decide) hmodest (by decide)
  have hfits : ∀ digest : Digest, digest.Supported → ∀ key,
      (relative ["cache", "store"]).Fits digest key := fun digest hd key =>
    fits_of_short (by decide) (by decide) hd key
  have hfits' : ∀ put ∈ crowd, ∀ digest,
      verify put.key put.url put.data put.declared = .ok digest →
        (relative ["cache", "store"]).Fits digest put.key := fun put _ digest hverify =>
    hfits digest (verify_eq_ok_iff.1 hverify).1.supported put.key
  -- both puts of `b` look before one of them lays it down
  have hturns : ∀ turn < crowd.length, 3 ≤ [0, 1, 1, 0, 2, 1, 0, 2, 2].count turn := by decide
  obtain ⟨hcomplete, hall⟩ :=
    (entries_interleaved hfresh hsize [0, 1, 1, 0, 2, 1, 0, 2, 2]).2.2.2 _ _ _ hway hfits' hturns
  have hrecords : recordsOf crowd "k" = [.stored "k" "u" (defaultDigest [98]).token 1,
      .stored "k" "v" (defaultDigest [98]).token 1] := by
    simp [recordsOf, crowd, Put.record?, verify_default]
  obtain ⟨found, hfound, hperm⟩ :=
    hall "k" (hfits (defaultDigest [98]) (of_defaultDigest _).supported "k").bucket
  exact ⟨hfresh, hsize, hway, hfits', hturns, hcomplete, found, hfound, hrecords ▸ hperm⟩

/-- A put without a declaration that has all the turns and is met completes its session. -/
theorem complete_alone {key url token : String} {data : Bytes}
    (hput : (store.put key url data none).run tree = (.ok token, after))
    (htoken : token = (defaultDigest data).token) :
    interleaved store [⟨key, url, data, none⟩] tree [0, 0, 0] =
        ⟨after, [(⟨key, url, data, none⟩, .ended (.ok token))]⟩ ∧
      Complete (interleaved store [⟨key, url, data, none⟩] tree [0, 0, 0]) := by
  have halone := interleaved_alone store ⟨key, url, data, none⟩ tree
  dsimp only at halone
  rw [hput] at halone
  refine ⟨halone, ?_⟩
  rw [halone]
  intro task htask
  obtain rfl := List.mem_singleton.1 htask
  dsimp only
  rw [verify_default, htoken]
  rfl

/-! ## Late roots -/

/-- **Through a root that comes into being late** the entries in the end are more than the
records of the puts: those of an old store come with them. -/
theorem entries_interleaved_late_root :
    (oldTree "store" "l" (lineOctets "l" "u" (defaultDigest [97]) 1)).WellFormed ∧
      (oldTree "store" "l" (lineOctets "l" "u" (defaultDigest [97]) 1)).lookUp
        (late "store").root = .error .noEntry ∧
      Complete (interleaved (late "store") [⟨"l", "v", [98], none⟩]
        (oldTree "store" "l" (lineOctets "l" "u" (defaultDigest [97]) 1)) [0, 0, 0]) ∧
      ∃ found,
        (late "store").entries (interleaved (late "store") [⟨"l", "v", [98], none⟩]
          (oldTree "store" "l" (lineOctets "l" "u" (defaultDigest [97]) 1)) [0, 0, 0]).tree "l" =
          .ok found ∧
        ¬ found.Perm (recordsOf [⟨"l", "v", [98], none⟩] "l") := by
  have hname : Ordinary "store" := ⟨by decide, by decide, ⟨by decide, by decide⟩⟩
  have hnothing : FileTree.Modest [] 0 := ⟨rfl, Nat.le_refl _⟩
  have hsize : Bytes.Measurable [97] := Bytes.measurable_of_lt (by decide)
  have hsize' : Bytes.Measurable [98] := Bytes.measurable_of_lt (by decide)
  obtain ⟨after, hput, _, hread⟩ := run_put_late hname "l" "v"
    (lineOctets "l" "u" (defaultDigest [97]) 1) [98]
  obtain ⟨halone, hcomplete⟩ := complete_alone hput rfl
  have hentries := entries_of_late hsize hsize' hread
  refine ⟨wellFormed_oldTree _ _ _, lookUp_late hname hnothing (by omega), hcomplete, _,
    by rw [halone]; exact hentries, ?_⟩
  intro hperm
  have hlength := hperm.length_eq
  have hone : (recordsOf [(⟨"l", "v", [98], none⟩ : Put)] "l").length ≤ 1 :=
    Nat.le_trans (List.length_filterMap_le _ _) (List.length_filter_le _ _)
  rw [List.length_cons, List.length_singleton] at hlength
  omega

end LockPrefetch.Store
