import Mathlib.Data.List.Perm.Basic
import Mathlib.Data.List.Nodup
import Mathlib.Data.String.Basic

/-! # Sorting by a text

Lists that are sorted by a text of their elements, in code point order. Sorting ignores the order
of the list if elements of the same text are the same (`sort_eq_of_perm`), for then there is only
one order in which the texts do not decrease (`eq_of_perm`). -/

set_option autoImplicit false

namespace LockPrefetch.Sorting

variable {α : Type} {key : α → String} {xs ys : List α}

/-- Texts tell the elements of a list apart. -/
def Telling (key : α → String) (xs : List α) : Prop :=
  ∀ a ∈ xs, ∀ b ∈ xs, key a = key b → a = b

theorem telling_of_nodup (h : (xs.map key).Nodup) : Telling key xs :=
  fun _ ha _ hb hkey => List.inj_on_of_nodup_map h ha hb hkey

theorem telling_id (xs : List String) : Telling id xs := fun _ _ _ _ hkey => hkey

theorem Telling.perm (h : Telling key xs) (hperm : ys.Perm xs) : Telling key ys :=
  fun a ha b hb => h a (hperm.mem_iff.1 ha) b (hperm.mem_iff.1 hb)

/-- Sorted lists do not decrease. -/
theorem pairwise_sort (key : α → String) (xs : List α) :
    (xs.mergeSort fun a b => decide (key a ≤ key b)).Pairwise fun a b => key a ≤ key b := by
  refine (List.pairwise_mergeSort ?_ ?_ xs).imp ?_
  · intro a b c hab hbc
    simp only [decide_eq_true_eq] at hab hbc ⊢
    exact String.le_trans hab hbc
  · intro a b
    simpa using String.le_total (key a) (key b)
  · intro a b hab
    simpa using hab

/-- A list that does not decrease increases if all texts are different. -/
theorem increasing_of_nodup (hnodup : (xs.map key).Nodup)
    (h : xs.Pairwise fun a b => key a ≤ key b) : xs.Pairwise fun a b => key a < key b := by
  refine h.imp₂ ?_ (List.pairwise_map.1 hnodup)
  intro a b hle hne
  exact String.not_le.1 fun hge => hne (String.le_antisymm hle hge)

/-- **A list has one order** in which its texts do not decrease. -/
theorem eq_of_perm (htelling : Telling key xs) (hperm : xs.Perm ys)
    (hxs : xs.Pairwise fun a b => key a ≤ key b) (hys : ys.Pairwise fun a b => key a ≤ key b) :
    xs = ys := by
  refine List.Perm.eq_of_pairwise ?_ hxs hys hperm
  intro a b ha hb hab hba
  exact htelling a ha b (hperm.mem_iff.2 hb) (String.le_antisymm hab hba)

/-- **Sorting ignores the order** of a list. -/
theorem sort_eq_of_perm (htelling : Telling key xs) (hperm : xs.Perm ys) :
    (xs.mergeSort fun a b => decide (key a ≤ key b)) =
      ys.mergeSort fun a b => decide (key a ≤ key b) := by
  have hsorted : (xs.mergeSort fun a b => decide (key a ≤ key b)).Perm xs :=
    List.mergeSort_perm xs _
  have hsame := calc
    List.Perm (xs.mergeSort fun a b => decide (key a ≤ key b)) xs := hsorted
    List.Perm _ ys := hperm
    List.Perm _ (ys.mergeSort fun a b => decide (key a ≤ key b)) := (List.mergeSort_perm ys _).symm
  exact eq_of_perm (htelling.perm hsorted) hsame (pairwise_sort key xs) (pairwise_sort key ys)

end LockPrefetch.Sorting
