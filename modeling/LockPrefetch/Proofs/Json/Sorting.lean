import LockPrefetch.Proofs.Json.RoundTrip

/-! # Reading JSON that was written with sorted members

Sorting moves the members of every object and loses none (`byName_perm`), so that it keeps a value
readable (`Plain.sorted`). Hence reading what was written of a sorted value gives the sorted value
back (`read_sorted`), and on a line no control character stands in it (`visible_of_mem_line`). -/

set_option autoImplicit false

namespace LockPrefetch.Json.Value

variable {items : List Value} {members : List (String × Value)}

/-! ## Items and members -/

theorem sortedItems_eq_map (items : List Value) : sortedItems items = items.map sorted := by
  induction items with
  | nil => rfl
  | cons item rest ih => rw [sortedItems, ih, List.map_cons]

theorem sortedMembers_eq_map (members : List (String × Value)) :
    sortedMembers members = members.map fun member => (member.1, member.2.sorted) := by
  induction members with
  | nil => rfl
  | cons member rest ih => rw [sortedMembers, ih, List.map_cons]

/-- Sorting within the members keeps their names. -/
theorem names_sortedMembers (members : List (String × Value)) :
    (sortedMembers members).map Prod.fst = members.map Prod.fst := by
  rw [sortedMembers_eq_map, List.map_map]
  rfl

theorem plainItems_iff : PlainItems items ↔ ∀ item ∈ items, item.Plain := by
  induction items with
  | nil => simp [PlainItems]
  | cons item rest ih => simp [PlainItems, ih]

theorem plainMembers_iff : PlainMembers members ↔ ∀ member ∈ members, member.2.Plain := by
  induction members with
  | nil => simp [PlainMembers]
  | cons member rest ih => simp [PlainMembers, ih]

/-- Members are moved, none is lost. -/
theorem byName_perm (members : List (String × Value)) : (byName members).Perm members :=
  List.mergeSort_perm members _

/-! ## Sorted values -/

mutual

/-- **Sorting keeps a value readable.** -/
theorem Plain.sorted (v : Value) (hv : v.Plain) : v.sorted.Plain := by
  cases v with
  | array items =>
      rw [Plain] at hv
      rw [Value.sorted, Plain]
      exact PlainItems.sorted items hv
  | object members =>
      rw [Plain] at hv
      -- members are moved and sorted within, so that their names are the same and differ still
      have hperm := byName_perm (sortedMembers members)
      rw [Value.sorted, Plain, (hperm.map Prod.fst).nodup_iff, names_sortedMembers,
        plainMembers_iff]
      refine ⟨hv.1, fun member hmember => ?_⟩
      exact plainMembers_iff.1 (PlainMembers.sorted members hv.2) member (hperm.mem_iff.1 hmember)
  | _ => exact hv

theorem PlainItems.sorted (items : List Value) (h : PlainItems items) :
    PlainItems (sortedItems items) := by
  cases items with
  | nil => trivial
  | cons item rest => exact ⟨Plain.sorted item h.1, PlainItems.sorted rest h.2⟩

theorem PlainMembers.sorted (members : List (String × Value)) (h : PlainMembers members) :
    PlainMembers (sortedMembers members) := by
  cases members with
  | nil => trivial
  | cons member rest => exact ⟨Plain.sorted member.2 h.1, PlainMembers.sorted rest h.2⟩

end

mutual

/-- The numbers of a value that can be read back are whole. -/
theorem Plain.whole (v : Value) (hv : v.Plain) : v.Whole := by
  cases v with
  | array items => exact PlainItems.whole items hv
  | object members => exact PlainMembers.whole members hv.2
  | real literal => exact hv
  | _ => trivial

theorem PlainItems.whole (items : List Value) (h : PlainItems items) : WholeItems items := by
  cases items with
  | nil => trivial
  | cons item rest => exact ⟨Plain.whole item h.1, PlainItems.whole rest h.2⟩

theorem PlainMembers.whole (members : List (String × Value)) (h : PlainMembers members) :
    WholeMembers members := by
  cases members with
  | nil => trivial
  | cons member rest => exact ⟨Plain.whole member.2 h.1, PlainMembers.whole rest h.2⟩

end

/-- **Reading gives back the sorted value** that was written, with white space behind it. -/
theorem read_sorted {layout : Layout} (hl : layout.Regular) {v : Value} (hv : v.Plain)
    (gap : List Char) (hgap : ∀ c ∈ gap, isGap c = true) :
    read ((v.sorted.render layout).toList ++ gap) = .ok v.sorted := by
  rw [render, String.toList_ofList]
  exact read_write_append hl (Plain.sorted v hv) gap hgap

/-- **A sorted value on a line has no control characters.** -/
theorem visible_of_mem_line {v : Value} (hv : v.Plain) :
    ∀ c ∈ (v.sorted.render .line).toList, 0x20 ≤ c.toNat := by
  have hwhole : v.sorted.Whole := Plain.whole _ (Plain.sorted v hv)
  rw [render, String.toList_ofList]
  exact visible_of_mem_write rfl (visible_of_all rfl) (visible_of_all rfl) _ 0 hwhole

end LockPrefetch.Json.Value
