import LockPrefetch.Diagnostic
import LockPrefetch.Encoding.Detect
import LockPrefetch.FileTree.Basic
import LockPrefetch.Json.Reader
import LockPrefetch.Transfer.Fault
import LockPrefetch.Url.Basic

/-! # Failures

Every way in which an operation can fail. Most failures are diagnosed; the others are faults of
the parts below, which come up as they are. -/

set_option autoImplicit false

namespace LockPrefetch

/-- Why an operation failed. -/
inductive Failure where
  /-- The failure has a diagnostic. -/
  | diagnosed (report : Diagnostic)
  /-- The text of a URL cannot be split. -/
  | malformedUrl (fault : Url.Malformed)
  /-- The digits of a digest are not ASCII. -/
  | foreignDigits
  /-- The name of a hash function holds a NUL character. -/
  | nulInName
  /-- A file that has to be text is not. -/
  | undecodable (fault : Encoding.Fault)
  /-- A whole number has too many digits. -/
  | oversizedNumber (digits : Nat)
  /-- The file tree refused a request. -/
  | fileTree (fault : FileTree.Fault)
  /-- No request could be made of a URL. -/
  | transfer (fault : Transfer.Fault)
  /-- A fetcher gave up for a reason of its own. -/
  | fetcher (message : String)
deriving DecidableEq, Repr

namespace Failure

/-- The text of a failure. -/
def text : Failure → String
  | .diagnosed report => report.text
  | .malformedUrl fault => fault.message
  | .foreignDigits => "string argument should contain only ASCII characters"
  | .nulInName => "name must be a string"
  | .undecodable fault => fault.message
  | .oversizedNumber digits => Text.oversizedText digits
  | .fileTree fault => fault.message
  | .transfer fault => fault.message
  | .fetcher message => message

/-- Attaches context to a diagnosed failure; the others have none. -/
def attach (extra : List (String × String)) : Failure → Failure
  | .diagnosed report => .diagnosed (report.attach extra)
  | failure => failure

end Failure

/-! ## Restated failures -/

@[simp] theorem mapError_ok {ε φ α : Type} (restate : ε → φ) (a : α) :
    (Except.ok a).mapError restate = .ok a := rfl

@[simp] theorem mapError_error {ε φ α : Type} (restate : ε → φ) (e : ε) :
    (Except.error e : Except ε α).mapError restate = .error (restate e) := rfl

/-! ## One step after another -/

theorem map_eq_ok_iff {ε α β : Type} {f : α → β} {x : Except ε α} {b : β} :
    x.map f = .ok b ↔ ∃ a, x = .ok a ∧ f a = b := by
  cases x <;> simp [Except.map]

theorem bind_eq_ok_iff {ε α β : Type} {x : Except ε α} {f : α → Except ε β} {b : β} :
    (x >>= f) = .ok b ↔ ∃ a, x = .ok a ∧ f a = .ok b := by
  cases x <;> simp [bind, Except.bind]

theorem bind_eq_error_iff {ε α β : Type} {x : Except ε α} {f : α → Except ε β} {e : ε} :
    (x >>= f) = .error e ↔ x = .error e ∨ ∃ a, x = .ok a ∧ f a = .error e := by
  cases x <;> simp [bind, Except.bind]

/-- Steps of which every one succeeds. -/
theorem mapM_eq_ok {ε α β : Type} {f : α → Except ε β} {g : α → β} {xs : List α}
    (h : ∀ x ∈ xs, f x = .ok (g x)) : xs.mapM f = .ok (xs.map g) := by
  induction xs with
  | nil => rfl
  | cons x rest ih =>
    rw [List.mapM_cons, h x List.mem_cons_self,
      ih fun y hy => h y (List.mem_cons_of_mem _ hy)]
    rfl

/-- **Steps fail with the first one of them that fails.** -/
theorem mapM_eq_error_iff {ε α β : Type} {f : α → Except ε β} {e : ε} {xs : List α} :
    xs.mapM f = .error e ↔ ∃ before x after, xs = before ++ x :: after ∧
      (∀ y ∈ before, ∃ b, f y = .ok b) ∧ f x = .error e := by
  induction xs with
  | nil =>
    constructor
    · nofun
    · rintro ⟨before, x, after, hnil, _⟩
      simp at hnil
  | cons first rest ih =>
    rw [List.mapM_cons, bind_eq_error_iff]
    constructor
    · rintro (hfirst | ⟨b, hfirst, hrest⟩)
      · exact ⟨[], first, rest, rfl, nofun, hfirst⟩
      · rcases bind_eq_error_iff.1 hrest with hrest | ⟨_, _, hnothing⟩
        · obtain ⟨before, x, after, rfl, hbefore, hx⟩ := ih.1 hrest
          exact ⟨first :: before, x, after, rfl, List.forall_mem_cons.2 ⟨⟨b, hfirst⟩, hbefore⟩, hx⟩
        · cases hnothing
    · rintro ⟨before, x, after, hsplit, hbefore, hx⟩
      cases before with
      | nil =>
        cases hsplit
        exact Or.inl hx
      | cons y before =>
        cases hsplit
        obtain ⟨⟨b, hfirst⟩, hbefore⟩ := List.forall_mem_cons.1 hbefore
        have hrest := ih.2 ⟨before, x, after, rfl, hbefore, hx⟩
        exact Or.inr ⟨b, hfirst, bind_eq_error_iff.2 (Or.inl hrest)⟩

/-- Steps fail for one of them. -/
theorem exists_of_mapM_eq_error {ε α β : Type} {f : α → Except ε β} {e : ε} {xs : List α}
    (h : xs.mapM f = .error e) : ∃ x ∈ xs, f x = .error e := by
  obtain ⟨before, x, after, rfl, _, hx⟩ := mapM_eq_error_iff.1 h
  exact ⟨x, List.mem_append_right _ List.mem_cons_self, hx⟩

/-- What steps yield comes from one of them. -/
theorem exists_of_mem_mapM {ε α β : Type} {f : α → Except ε β} {xs : List α} {ys : List β}
    (h : xs.mapM f = .ok ys) {y : β} (hy : y ∈ ys) : ∃ x ∈ xs, f x = .ok y := by
  induction xs generalizing ys with
  | nil =>
    cases h
    cases hy
  | cons x rest ih =>
    rw [List.mapM_cons] at h
    obtain ⟨first, hfirst, h⟩ := bind_eq_ok_iff.1 h
    obtain ⟨others, hothers, h⟩ := bind_eq_ok_iff.1 h
    cases h
    rcases List.mem_cons.1 hy with rfl | hmem
    · exact ⟨x, List.mem_cons_self, hfirst⟩
    · obtain ⟨z, hz, hstep⟩ := ih hothers hmem
      exact ⟨z, List.mem_cons_of_mem _ hz, hstep⟩

/-- Steps that succeed around one of them. -/
theorem mapM_append_cons_eq_ok {ε α β : Type} {f : α → Except ε β} {before after : List α}
    {x : α} {ys : List β} (h : (before ++ x :: after).mapM f = .ok ys) :
    ∃ first y last, before.mapM f = .ok first ∧ f x = .ok y ∧ after.mapM f = .ok last ∧
      ys = first ++ y :: last := by
  rw [List.mapM_append] at h
  obtain ⟨first, hfirst, h⟩ := bind_eq_ok_iff.1 h
  obtain ⟨others, hothers, h⟩ := bind_eq_ok_iff.1 h
  cases h
  rw [List.mapM_cons] at hothers
  obtain ⟨y, hy, hothers⟩ := bind_eq_ok_iff.1 hothers
  obtain ⟨last, hlast, hothers⟩ := bind_eq_ok_iff.1 hothers
  cases hothers
  exact ⟨first, y, last, hfirst, hy, hlast, rfl⟩

end LockPrefetch
