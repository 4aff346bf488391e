import LockPrefetch.Proofs.Cache.Ledger
import Mathlib.Data.List.Perm.Basic
import Mathlib.Logic.Function.Iterate

/-! # Puts that take turns

A put takes three steps: it looks whether its content is there, it lays the content down if it
was not, and it adds its record. Several puts at once take their steps in any order, so that
other puts may come in between, and the look of a put may be outdated when it acts on it. A
schedule says whose turn it is.

Whatever the schedule, at any time the records are those of the puts that have returned, and each
one that is seen points to content that can be read (`Consistent`, kept by `Consistent.run`). After
three turns each, all puts have ended (`ended_of_turns`). One put alone does what `Store.put` does
(`steps_alone`). -/

set_option autoImplicit false

namespace LockPrefetch.Store

open Cache (contentNames bucketNames)

/-! ## Steps -/

/-- How far a put has come. -/
inductive Progress where
  | waiting
  | looked (digest : Digest) (present : Bool)
  | laid (digest : Digest)
  | ended (result : Except Failure String)

namespace Progress

/-- How a put goes on after a step that may fail. -/
def following {α : Type} (result : Except Failure α) (next : α → Progress) : Progress :=
  match result with
  | .error failure => .ended (.error failure)
  | .ok a => next a

@[simp] theorem following_ok {α : Type} (a : α) (next : α → Progress) :
    following (.ok a) next = next a := rfl

@[simp] theorem following_error {α : Type} (failure : Failure) (next : α → Progress) :
    following (.error failure) next = .ended (.error failure) := rfl

/-- Whether a put has returned. -/
def returned : Progress → Bool
  | .ended (.ok _) => true
  | _ => false

/-- The most steps that a put still takes. -/
def left : Progress → Nat
  | .waiting => 3
  | .looked _ _ => 2
  | .laid _ => 1
  | .ended _ => 0

end Progress

/-- The next step of a put. Content is verified before the first one; a put that has ended
takes none. -/
def Put.step (store : Store) (put : Put) (progress : Progress) (tree : FileTree) :
    Progress × FileTree :=
  match progress with
  | .waiting =>
    (.following (verify put.key put.url put.data put.declared) fun digest =>
      .following (store.hasContent tree digest) fun present => .looked digest present, tree)
  | .looked digest present =>
    let (result, after) := (store.layDown digest put.data present).run tree
    (.following result fun _ => .laid digest, after)
  | .laid digest =>
    let (result, after) :=
      (store.appendRecord put.key put.url digest put.data.length).run tree
    (.following result fun _ => .ended (.ok digest.token), after)
  | .ended result => (.ended result, tree)

/-- A put with how far it has come. -/
abbrev Task := Put × Progress

/-- A file tree and the puts that are under way on it. -/
structure Session where
  tree : FileTree
  tasks : List Task

namespace Session

/-- Puts that have not started. -/
def start (puts : List Put) (tree : FileTree) : Session := ⟨tree, puts.map (·, .waiting)⟩

/-- One put takes its next step. -/
def step (store : Store) (session : Session) (turn : Nat) : Session :=
  match session.tasks[turn]? with
  | none => session
  | some (put, progress) =>
    let next := put.step store progress session.tree
    ⟨next.2, session.tasks.set turn (put, next.1)⟩

/-- The puts take turns. -/
def run (store : Store) (schedule : List Nat) (session : Session) : Session :=
  schedule.foldl (step store) session

end Session

/-- The puts that have returned. -/
def returned (tasks : List Task) : List Put := (tasks.filter (·.2.returned)).map Prod.fst

/-- The record that a put makes, if its content is what it is declared to be. -/
def Put.record? (put : Put) : Option Cache.Entry :=
  match verify put.key put.url put.data put.declared with
  | .ok digest => some (.stored put.key put.url digest.token put.data.length)
  | .error _ => none

/-- The records that puts make under a key. -/
def recordsOf (puts : List Put) (key : String) : List Cache.Entry :=
  (puts.filter fun put => put.key = key).filterMap Put.record?

/-- Every put has ended, and whatever was verified has been stored. -/
def Complete (session : Session) : Prop :=
  ∀ task ∈ session.tasks, task.2 = .ended ((verify task.1.key task.1.url task.1.data
    task.1.declared).map Digest.token)

variable {store : Store} {tree after : FileTree} {base : Location} {put : Put}
  {progress : Progress} {puts : List Put} {session : Session} {ledger : List Deposit}
  {Offered : Deposit → Prop}

/-! ## One put alone -/

namespace Put

theorem step_waiting (store : Store) (put : Put) (tree : FileTree) :
    put.step store .waiting tree =
      (.following (verify put.key put.url put.data put.declared) fun digest =>
        .following (store.hasContent tree digest) fun present => .looked digest present, tree) :=
  rfl

theorem step_looked {digest : Digest} {present : Bool} {result : Except Failure Unit}
    (h : (store.layDown digest put.data present).run tree = (result, after)) :
    put.step store (.looked digest present) tree =
      (.following result fun _ => .laid digest, after) := by
  simp only [step, h]

theorem step_laid {digest : Digest} {result : Except Failure Unit}
    (h : (store.appendRecord put.key put.url digest put.data.length).run tree = (result, after)) :
    put.step store (.laid digest) tree =
      (.following result fun _ => .ended (.ok digest.token), after) := by
  simp only [step, h]

@[simp] theorem step_ended (store : Store) (put : Put) (result : Except Failure String)
    (tree : FileTree) : put.step store (.ended result) tree = (.ended result, tree) := rfl

/-- **What a step does to the tree**: nothing, or it places the content that was missing, or it
adds the record. -/
theorem tree_step (store : Store) (put : Put) (progress : Progress) (tree : FileTree) :
    (put.step store progress tree).2 = tree ∨
      (∃ digest, progress = .looked digest false ∧
        (put.step store progress tree).2 =
          ((store.placeContent digest put.data).run tree).2) ∨
      ∃ digest, progress = .laid digest ∧
        (put.step store progress tree).2 =
          ((store.appendRecord put.key put.url digest put.data.length).run tree).2 := by
  cases progress with
  | waiting => exact Or.inl rfl
  | looked digest present =>
      rcases hrun : (store.layDown digest put.data present).run tree with ⟨result, after⟩
      rw [step_looked hrun]
      cases present with
      | true =>
          rw [layDown, if_pos rfl, FileTree.Action.run_pure] at hrun
          exact Or.inl (Prod.mk.inj hrun).2.symm
      | false =>
          rw [layDown, if_neg (by simp)] at hrun
          exact Or.inr (Or.inl ⟨digest, rfl, by rw [hrun]⟩)
  | laid digest =>
      rcases hrun : (store.appendRecord put.key put.url digest put.data.length).run tree with
        ⟨result, after⟩
      rw [step_laid hrun]
      exact Or.inr (Or.inr ⟨digest, rfl, by rw [hrun]⟩)
  | ended result => exact Or.inl rfl

end Put

/-- **Three steps in a row are a put.** -/
theorem steps_alone (store : Store) (put : Put) (tree : FileTree) :
    (fun state : Progress × FileTree => put.step store state.1 state.2)^[3] (.waiting, tree) =
      (.ended ((store.put put.key put.url put.data put.declared).run tree).1,
        ((store.put put.key put.url put.data put.declared).run tree).2) := by
  rw [run_put, Function.iterate_succ_apply, Function.iterate_succ_apply,
    Function.iterate_succ_apply, Function.iterate_zero_apply, Put.step_waiting]
  cases verify put.key put.url put.data put.declared with
  | error failure => simp only [Progress.following_error, Put.step_ended]
  | ok digest =>
      simp only [Progress.following_ok]
      cases store.hasContent tree digest with
      | error failure => simp only [Progress.following_error, Put.step_ended]
      | ok present =>
          simp only [Progress.following_ok]
          rcases hlay : (store.layDown digest put.data present).run tree with ⟨result, mid⟩
          rw [Put.step_looked hlay]
          cases result with
          | error failure => simp only [Progress.following_error, Put.step_ended]
          | ok _ =>
              simp only [Progress.following_ok]
              rcases hadd : (store.appendRecord put.key put.url digest put.data.length).run mid with
                ⟨result, after⟩
              rw [Put.step_laid hadd]
              cases result with
              | error failure => simp only [Progress.following_error]
              | ok _ => simp only [Progress.following_ok]

/-! ## The invariant -/

/-- What a put knows of the tree. -/
def Sound (store : Store) (tree : FileTree) (put : Put) : Progress → Prop
  | .waiting => True
  | .looked digest present =>
    verify put.key put.url put.data put.declared = .ok digest ∧
      (present = true → store.Held tree digest)
  | .laid digest =>
    verify put.key put.url put.data put.declared = .ok digest ∧ store.Held tree digest
  | .ended result => ∀ token, result = .ok token →
    ∃ digest, verify put.key put.url put.data put.declared = .ok digest ∧ digest.token = token

theorem Sound.mono (h : Sound store tree put progress) (hkeeps : store.Keeps tree after) :
    Sound store after put progress := by
  cases progress with
  | waiting => trivial
  | looked digest present =>
      obtain ⟨hverify, hheld⟩ := h
      refine ⟨hverify, fun hpresent => ?_⟩
      exact hkeeps digest (verify_eq_ok_iff.1 hverify).1.supported (hheld hpresent)
  | laid digest =>
      obtain ⟨hverify, hheld⟩ := h
      exact ⟨hverify, hkeeps digest (verify_eq_ok_iff.1 hverify).1.supported hheld⟩
  | ended result => exact h

/-- **A step** makes no content go, and adds a record to the ledger exactly if the put returns
with it. -/
theorem Holds.put_step (h : store.Holds base Offered ledger tree) (hsize : put.data.Measurable)
    (hoffered : ∀ p : Deposit, p.toPut = put → Offered p) (hsound : Sound store tree put progress) :
    ∃ next after, put.step store progress tree = (next, after) ∧ store.Keeps tree after ∧
      Sound store after put next ∧
      ((store.Holds base Offered ledger after ∧ next.returned = progress.returned) ∨
        ∃ p : Deposit, p.toPut = put ∧ store.Holds base Offered (ledger ++ [p]) after ∧
          progress.returned = false ∧ next.returned = true) := by
  have hstay : store.Keeps tree tree := fun _ _ hheld => hheld
  cases progress with
  | waiting =>
      rw [Put.step_waiting]
      cases hverify : verify put.key put.url put.data put.declared with
      | error failure => exact ⟨_, tree, rfl, hstay, nofun, Or.inl ⟨h, rfl⟩⟩
      | ok digest =>
          rw [Progress.following_ok]
          cases hpresent : store.hasContent tree digest with
          | error failure => exact ⟨_, tree, rfl, hstay, nofun, Or.inl ⟨h, rfl⟩⟩
          | ok present =>
              refine ⟨_, tree, rfl, hstay, ⟨hverify, ?_⟩, Or.inl ⟨h, rfl⟩⟩
              -- what the look finds has been laid down by a put of the ledger
              rintro rfl
              exact h.held_of_hasContent (verify_eq_ok_iff.1 hverify).1.supported hpresent
  | looked digest present =>
      obtain ⟨hverify, hheld⟩ := hsound
      obtain ⟨p, rfl, rfl⟩ : ∃ p : Deposit, p.toPut = put ∧ p.digest = digest :=
        ⟨⟨put, digest, hverify, hsize⟩, rfl, rfl⟩
      obtain ⟨result, after, hrun, hholds, hkeeps, hlaid⟩ := h.run_layDown (hoffered p rfl) hheld
      rw [Put.step_looked hrun]
      cases result with
      | error failure => exact ⟨_, after, rfl, hkeeps, nofun, Or.inl ⟨hholds, rfl⟩⟩
      | ok _ => exact ⟨_, after, rfl, hkeeps, ⟨hverify, hlaid rfl⟩, Or.inl ⟨hholds, rfl⟩⟩
  | laid digest =>
      obtain ⟨hverify, hheld⟩ := hsound
      obtain ⟨p, rfl, rfl⟩ : ∃ p : Deposit, p.toPut = put ∧ p.digest = digest :=
        ⟨⟨put, digest, hverify, hsize⟩, rfl, rfl⟩
      -- the record is refused, or it is added and the put returns
      rcases h.run_appendRecord hheld with
        ⟨failure, after, hrun, hholds, hkeeps⟩ | ⟨after, hrun, hholds, hkeeps⟩
      · rw [Put.step_laid hrun]
        exact ⟨_, after, rfl, hkeeps, nofun, Or.inl ⟨hholds, rfl⟩⟩
      · rw [Put.step_laid hrun]
        refine ⟨_, after, rfl, hkeeps, ?_, Or.inr ⟨p, rfl, hholds, rfl, rfl⟩⟩
        intro token htoken
        exact ⟨p.digest, hverify, Except.ok.inj htoken⟩
  | ended result => exact ⟨_, tree, rfl, hstay, hsound, Or.inl ⟨h, rfl⟩⟩

/-- **What holds of a session at any time**: its ledger lists exactly the puts that have
returned. -/
structure Consistent (store : Store) (base : Location) (puts : List Put) (session : Session) :
    Prop where
  same : session.tasks.map Prod.fst = puts
  sound : ∀ task ∈ session.tasks, Sound store session.tree task.1 task.2
  ledger : ∃ ledger, store.Holds base (fun p => p.toPut ∈ puts) ledger session.tree ∧
    (ledger.map Deposit.toPut).Perm (returned session.tasks)

theorem consistent_start (h : store.Fresh base tree) (puts : List Put) :
    Consistent store base puts (.start puts tree) where
  same := by simp [Session.start, Function.comp_def]
  sound := by
    intro task htask
    obtain ⟨put, _, rfl⟩ := List.mem_map.1 htask
    trivial
  ledger := by
    have hnone : returned (Session.start puts tree).tasks = [] := by
      simp [returned, Session.start, Progress.returned]
    refine ⟨[], h.holds _, ?_⟩
    rw [hnone]
    exact List.Perm.refl _

theorem returned_cons (task : Task) (tasks : List Task) :
    returned (task :: tasks) = returned [task] ++ returned tasks := by
  by_cases h : task.2.returned = true
  · simp [returned, h]
  · simp [returned, h]

/-- Changing one task changes no more than its own part of what has returned. -/
theorem returned_set {tasks : List Task} {turn : Nat} {task : Task}
    (h : tasks[turn]? = some task) (next : Task) :
    ∃ rest, (returned tasks).Perm (returned [task] ++ rest) ∧
      (returned (tasks.set turn next)).Perm (returned [next] ++ rest) := by
  obtain ⟨hturn, rfl⟩ := List.getElem?_eq_some_iff.1 h
  refine ⟨returned (tasks.eraseIdx turn), ?_, ?_⟩
  · rw [← returned_cons]
    exact (((List.getElem_cons_eraseIdx_perm hturn).filter _).map _).symm
  · rw [← returned_cons]
    exact ((List.set_perm_cons_eraseIdx hturn next).filter _).map _

/-- A step with which a put does not return changes nothing of what has returned. -/
theorem returned_set_of_eq {tasks : List Task} {turn : Nat} {next : Progress}
    (h : tasks[turn]? = some (put, progress)) (hsame : next.returned = progress.returned) :
    (returned (tasks.set turn (put, next))).Perm (returned tasks) := by
  obtain ⟨rest, hbefore, hafter⟩ := returned_set h (put, next)
  have heq : returned [(put, next)] = returned [(put, progress)] := by
    by_cases hdone : progress.returned = true
    · simp [returned, hsame, hdone]
    · simp [returned, hsame, hdone]
  rw [heq] at hafter
  exact hafter.trans hbefore.symm

/-- A step with which a put returns adds that put to what has returned. -/
theorem returned_set_of_returned {tasks : List Task} {turn : Nat} {next : Progress}
    (h : tasks[turn]? = some (put, progress)) (hnot : progress.returned = false)
    (hdone : next.returned = true) :
    (returned (tasks.set turn (put, next))).Perm (put :: returned tasks) := by
  obtain ⟨rest, hbefore, hafter⟩ := returned_set h (put, next)
  have hnone : returned [(put, progress)] = [] := by simp [returned, hnot]
  have hone : returned [(put, next)] = [put] := by simp [returned, hdone]
  rw [hnone, List.nil_append] at hbefore
  rw [hone, List.singleton_append] at hafter
  exact hafter.trans (hbefore.symm.cons _)

/-- The puts stay what they are, whoever takes a step. -/
theorem map_fst_set {tasks : List Task} {turn : Nat} (h : tasks[turn]? = some (put, progress))
    (next : Progress) : (tasks.set turn (put, next)).map Prod.fst = tasks.map Prod.fst := by
  have hat : (tasks.map Prod.fst)[turn]? = some put := by
    rw [List.getElem?_map, h]
    rfl
  obtain ⟨_, hput⟩ := List.getElem?_eq_some_iff.1 hat
  rw [List.map_set]
  show (tasks.map Prod.fst).set turn put = tasks.map Prod.fst
  rw [← hput, List.set_getElem_self]

/-- **A step of any put** keeps the session consistent. -/
theorem Consistent.step (h : Consistent store base puts session)
    (hsize : ∀ put ∈ puts, put.data.Measurable) (turn : Nat) :
    Consistent store base puts (session.step store turn) := by
  unfold Session.step
  cases htask : session.tasks[turn]? with
  | none => exact h
  | some task =>
      obtain ⟨put, progress⟩ := task
      obtain ⟨hputs, hsound, ledger, hholds, hperm⟩ := h
      have hmem : (put, progress) ∈ session.tasks := List.mem_of_getElem? htask
      have hput : put ∈ puts := hputs ▸ List.mem_map_of_mem hmem
      have hoffered : ∀ p : Deposit, p.toPut = put → p.toPut ∈ puts := by
        rintro p rfl
        exact hput
      obtain ⟨next, after, hrun, hkeeps, hnext, hledger⟩ :=
        hholds.put_step (hsize put hput) hoffered (hsound _ hmem)
      simp only [hrun]
      refine ⟨(map_fst_set htask next).trans hputs, ?_, ?_⟩
      · -- what the other puts know stays true, since no content goes
        intro task hin
        rcases List.mem_or_eq_of_mem_set hin with hin | rfl
        · exact (hsound task hin).mono hkeeps
        · exact hnext
      · rcases hledger with ⟨hsame, hreturned⟩ | ⟨p, rfl, hmore, hnot, hdone⟩
        · -- the put has not returned with this step: the ledger is the same
          exact ⟨ledger, hsame, hperm.trans (returned_set_of_eq htask hreturned).symm⟩
        · -- the put has returned: its record is the last one of the ledger
          refine ⟨ledger ++ [p], hmore, ?_⟩
          rw [List.map_append, List.map_singleton]
          calc
            List.Perm (ledger.map Deposit.toPut ++ [p.toPut])
                (p.toPut :: ledger.map Deposit.toPut) := List.perm_append_singleton _ _
            List.Perm _ (p.toPut :: returned session.tasks) := hperm.cons _
            List.Perm _ (returned (session.tasks.set turn (p.toPut, next))) :=
              (returned_set_of_returned htask hnot hdone).symm

theorem Consistent.run (h : Consistent store base puts session)
    (hsize : ∀ put ∈ puts, put.data.Measurable) (schedule : List Nat) :
    Consistent store base puts (session.run store schedule) := by
  induction schedule generalizing session with
  | nil => exact h
  | cons turn rest ih => exact ih (h.step hsize turn)

/-! ## Turns -/

theorem Put.left_step (store : Store) (put : Put) (progress : Progress) (tree : FileTree) :
    (put.step store progress tree).1.left ≤ progress.left - 1 := by
  cases progress with
  | waiting =>
      rw [Put.step_waiting]
      cases verify put.key put.url put.data put.declared with
      | error failure => simp [Progress.left]
      | ok digest =>
          rw [Progress.following_ok]
          cases store.hasContent tree digest with
          | error failure => simp [Progress.left]
          | ok present => simp [Progress.left]
  | looked digest present =>
      rcases hrun : (store.layDown digest put.data present).run tree with ⟨result, after⟩
      rw [Put.step_looked hrun]
      cases result with
      | error failure => simp [Progress.left]
      | ok _ => simp [Progress.left]
  | laid digest =>
      rcases hrun : (store.appendRecord put.key put.url digest put.data.length).run tree with
        ⟨result, after⟩
      rw [Put.step_laid hrun]
      cases result with
      | error failure => simp [Progress.left]
      | ok _ => simp [Progress.left]
  | ended result => simp [Progress.left]

/-- Each turn of a put leaves it a step less. -/
theorem left_run (store : Store) (schedule : List Nat) (turn : Nat) {task : Task}
    (h : (session.run store schedule).tasks[turn]? = some task) :
    ∃ first, session.tasks[turn]? = some first ∧
      task.2.left ≤ first.2.left - schedule.count turn := by
  induction schedule generalizing session with
  | nil => exact ⟨task, h, by simp⟩
  | cons now rest ih =>
      obtain ⟨first, hfirst, hle⟩ := ih h
      unfold Session.step at hfirst
      cases hnow : session.tasks[now]? with
      | none =>
          rw [hnow] at hfirst
          have hne : now ≠ turn := by
            rintro rfl
            rw [hnow] at hfirst
            cases hfirst
          exact ⟨first, hfirst, by rwa [List.count_cons_of_ne hne]⟩
      | some old =>
          rw [hnow] at hfirst
          by_cases hturn : now = turn
          · -- its own turn: one step less is left, and one turn more is counted
            subst hturn
            obtain ⟨hlt, _⟩ := List.getElem?_eq_some_iff.1 hnow
            rw [List.getElem?_set_self hlt] at hfirst
            cases hfirst
            refine ⟨old, hnow, ?_⟩
            have hstep := Put.left_step store old.1 old.2 session.tree
            dsimp only at hle
            rw [List.count_cons_self]
            omega
          · rw [List.getElem?_set_ne hturn] at hfirst
            exact ⟨first, hfirst, by rwa [List.count_cons_of_ne hturn]⟩

/-! ## Interleavings -/

/-- The session of puts that take turns after a schedule. -/
def interleaved (store : Store) (puts : List Put) (tree : FileTree) (schedule : List Nat) :
    Session :=
  (Session.start puts tree).run store schedule

/-- The puts of a session stay what they are. -/
theorem map_fst_interleaved (store : Store) (puts : List Put) (tree : FileTree)
    (schedule : List Nat) : (interleaved store puts tree schedule).tasks.map Prod.fst = puts := by
  have hrun : ∀ session : Session,
      (session.run store schedule).tasks.map Prod.fst = session.tasks.map Prod.fst := by
    induction schedule with
    | nil => exact fun _ => rfl
    | cons turn rest ih =>
        intro session
        refine (ih (session.step store turn)).trans ?_
        unfold Session.step
        cases htask : session.tasks[turn]? with
        | none => rfl
        | some task => exact map_fst_set htask _
  rw [interleaved, hrun]
  simp [Session.start, Function.comp_def]

/-- **After three turns each, every put has ended.** -/
theorem ended_of_turns {schedule : List Nat} (h : ∀ turn < puts.length, 3 ≤ schedule.count turn) :
    ∀ task ∈ (interleaved store puts tree schedule).tasks, ∃ result, task.2 = .ended result := by
  intro task htask
  obtain ⟨turn, hturn⟩ := List.mem_iff_getElem?.1 htask
  obtain ⟨first, hfirst, hle⟩ := left_run store schedule turn hturn
  obtain ⟨hlt, hfirst⟩ := List.getElem?_eq_some_iff.1 hfirst
  have hthree : first.2.left ≤ 3 := by
    rw [← hfirst]
    simp [Session.start, Progress.left]
  have hcount := h turn (by simpa [Session.start] using hlt)
  have hnone : task.2.left = 0 := by omega
  cases hprogress : task.2 with
  | ended result => exact ⟨result, rfl⟩
  | waiting => simp [hprogress, Progress.left] at hnone
  | looked digest present => simp [hprogress, Progress.left] at hnone
  | laid digest => simp [hprogress, Progress.left] at hnone

/-- A put that has all the turns. -/
theorem interleaved_alone (store : Store) (put : Put) (tree : FileTree) :
    interleaved store [put] tree [0, 0, 0] =
      ⟨((store.put put.key put.url put.data put.declared).run tree).2,
        [(put, .ended ((store.put put.key put.url put.data put.declared).run tree).1)]⟩ := by
  have hsteps := steps_alone store put tree
  have hstep : ∀ state : Progress × FileTree,
      Session.step store ⟨state.2, [(put, state.1)]⟩ 0 =
        ⟨(put.step store state.1 state.2).2, [(put, (put.step store state.1 state.2).1)]⟩ :=
    fun _ => rfl
  have hstart : Session.start [put] tree =
      ⟨(Progress.waiting, tree).2, [(put, (Progress.waiting, tree).1)]⟩ := rfl
  rw [Function.iterate_succ_apply, Function.iterate_succ_apply, Function.iterate_succ_apply,
    Function.iterate_zero_apply] at hsteps
  rw [interleaved, Session.run, hstart, List.foldl_cons, List.foldl_cons, List.foldl_cons,
    List.foldl_nil, hstep, hstep, hstep, hsteps]

/-! ## What is read -/

theorem Deposit.record?_toPut (p : Deposit) : p.toPut.record? = some p.entry := by
  simp only [Put.record?, p.verified]
  rfl

/-- The entries of a ledger are the records of its puts. -/
theorem recordsOf_ledger (ledger : List Deposit) (key : String) :
    recordsOf (ledger.map Deposit.toPut) key =
      (ledger.filter fun p => p.key = key).map Deposit.entry := by
  have hrecord : Put.record? ∘ Deposit.toPut = some ∘ Deposit.entry :=
    funext fun p => p.record?_toPut
  rw [recordsOf, List.filter_map, List.filterMap_map, hrecord, List.filterMap_eq_map]
  rfl

/-- A put whose content is not verified makes no record, and has not returned either. -/
theorem recordsOf_returned (h : Complete session) (key : String) :
    recordsOf (returned session.tasks) key = recordsOf (session.tasks.map Prod.fst) key := by
  obtain ⟨tree, tasks⟩ := session
  induction tasks with
  | nil => rfl
  | cons task tasks ih =>
      obtain ⟨put, progress⟩ := task
      have hrest := ih fun task htask => h task (List.mem_cons_of_mem _ htask)
      have hprogress := h _ List.mem_cons_self
      have hsplit : ∀ xs ys, recordsOf (xs ++ ys) key = recordsOf xs key ++ recordsOf ys key := by
        intro xs ys
        rw [recordsOf, List.filter_append, List.filterMap_append]
        rfl
      have hone : recordsOf (returned [(put, progress)]) key = recordsOf [put] key := by
        dsimp only at hprogress
        subst hprogress
        cases hverify : verify put.key put.url put.data put.declared with
        | ok digest => rfl
        | error failure =>
            -- the put has ended with that failure, so neither side lists it
            have hrecord : put.record? = none := by simp only [Put.record?, hverify]
            by_cases hkey : put.key = key
            · simp [returned, recordsOf, Progress.returned, Except.map, hkey, hrecord]
            · simp [returned, recordsOf, Progress.returned, Except.map, hkey]
      have hmap : ((put, progress) :: tasks).map Prod.fst = [put] ++ tasks.map Prod.fst := rfl
      rw [returned_cons, hsplit, hone, hrest, hmap, hsplit]

/-- **A put whose content is verified has returned** in a complete session. -/
theorem Complete.ended (h : Complete session) {digest : Digest}
    (hput : put ∈ session.tasks.map Prod.fst)
    (hverify : verify put.key put.url put.data put.declared = .ok digest) :
    (put, .ended (.ok digest.token)) ∈ session.tasks := by
  obtain ⟨⟨put, progress⟩, htask, rfl⟩ := List.mem_map.1 hput
  have hended := h _ htask
  dsimp only at hended hverify
  subst hended
  rwa [hverify] at htask

namespace Consistent

/-- **Entries are the records of the puts that have returned**, in some order. -/
theorem entries_perm (h : Consistent store base puts session) {key : String}
    {found : List Cache.Entry} (hfound : store.entries session.tree key = .ok found) :
    found.Perm (recordsOf (returned session.tasks) key) := by
  obtain ⟨ledger, hholds, hperm⟩ := h.ledger
  rw [hholds.eq_of_entries hfound, ← recordsOf_ledger]
  exact (hperm.filter _).filterMap _

/-- **What an entry points to can be read.** -/
theorem read_entry (h : Consistent store base puts session) {key : String}
    {found : List Cache.Entry} (hfound : store.entries session.tree key = .ok found) :
    ∀ entry ∈ found, ∃ token data, entry.integrity = some token ∧
      store.read session.tree token = .ok data := by
  obtain ⟨ledger, hholds, _⟩ := h.ledger
  rw [hholds.eq_of_entries hfound]
  intro entry hentry
  obtain ⟨p, hp, rfl⟩ := List.mem_map.1 hentry
  obtain ⟨q, _, _, hread⟩ := hholds.read_eq (List.mem_filter.1 hp).1
  exact ⟨p.digest.token, q.data, rfl, hread⟩

/-- Once a put has returned, entries are returned for every key. -/
theorem entries_returned (h : Consistent store base puts session)
    (hany : returned session.tasks ≠ []) (key : String) :
    ∃ found, store.entries session.tree key = .ok found := by
  obtain ⟨ledger, hholds, hperm⟩ := h.ledger
  have hledger : ledger ≠ [] := by
    rintro rfl
    exact hany (List.nil_perm.1 hperm)
  exact ⟨_, hholds.entries_eq hledger key⟩

/-- A put that has returned is in the ledger, under the digest whose token it returned. -/
theorem mem_ledger (h : Consistent store base puts session) {put : Put} {token : String}
    (hended : (put, .ended (.ok token)) ∈ session.tasks) :
    ∃ ledger, store.Holds base (fun p => p.toPut ∈ puts) ledger session.tree ∧
      ∃ p ∈ ledger, p.toPut = put ∧ p.digest.token = token := by
  obtain ⟨ledger, hholds, hperm⟩ := h.ledger
  have hreturned : put ∈ returned session.tasks :=
    List.mem_map_of_mem (List.mem_filter.2 ⟨hended, rfl⟩)
  obtain ⟨p, hp, hsame⟩ := List.mem_map.1 (hperm.mem_iff.2 hreturned)
  obtain ⟨digest, hverify, htoken⟩ := h.sound _ hended token rfl
  refine ⟨ledger, hholds, p, hp, hsame, ?_⟩
  have hverified := p.verified
  rw [hsame, hverify] at hverified
  rw [← Except.ok.inj hverified, htoken]

/-- **In the end the content files are those of the puts**, whatever the schedule was. -/
theorem content_iff (h : Consistent store base puts session) (hcomplete : Complete session)
    (names : List String) :
    (∃ bytes, session.tree.get? (base ++ Cache.contentDirectory :: names) = some (.file bytes)) ↔
      ∃ put ∈ puts, ∃ digest, verify put.key put.url put.data put.declared = .ok digest ∧
        Cache.contentDirectory :: names = contentNames digest := by
  constructor
  · -- content that is there was offered by one of the puts
    rintro ⟨bytes, hfile⟩
    obtain ⟨ledger, hholds, _⟩ := h.ledger
    rcases hholds.files _ bytes hfile with ⟨p, hp, hnames, _⟩ | ⟨p, _, hnames, _⟩
    · exact ⟨p.toPut, hp, p.digest, p.verified, hnames⟩
    · have hhead := (List.cons.inj hnames).1
      exact absurd hhead (by decide)
  · -- a put that is verified has returned, so the ledger vouches for its content
    rintro ⟨put, hput, digest, hverify, hnames⟩
    rw [← h.same] at hput
    obtain ⟨ledger, hholds, p, hp, hsame, _⟩ := h.mem_ledger (hcomplete.ended hput hverify)
    have hdigest : p.digest = digest := by
      have hverified := p.verified
      rw [hsame, hverify] at hverified
      exact (Except.ok.inj hverified).symm
    rw [hnames, ← hdigest]
    exact ((held_iff hholds.leads p.supported).1 (hholds.contents p hp)).2

end Consistent

end LockPrefetch.Store
