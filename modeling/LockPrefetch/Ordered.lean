/-! # Ordered maps

Lists of pairs that are kept in the order in which their keys came. Putting a key that is
already there replaces its value and keeps its place; a new key goes to the end. Lockfile
sections, package maps, JSON objects and the context of a diagnostic are all of this kind. -/

set_option autoImplicit false

namespace LockPrefetch.Ordered

variable {κ α : Type} [DecidableEq κ]

/-- The value of a key. -/
def get? (key : κ) : List (κ × α) → Option α
  | [] => none
  | (k, a) :: rest => if k = key then some a else get? key rest

/-- Sets the value of a key. -/
def put (key : κ) (value : α) : List (κ × α) → List (κ × α)
  | [] => [(key, value)]
  | (k, a) :: rest => if k = key then (k, value) :: rest else (k, a) :: put key value rest

/-- Sets the value of a key that has none yet. -/
def putMissing (key : κ) (value : α) (map : List (κ × α)) : List (κ × α) :=
  match get? key map with
  | some _ => map
  | none => map ++ [(key, value)]

/-- The map that results from putting pairs one after another. -/
def ofPairs (pairs : List (κ × α)) : List (κ × α) :=
  pairs.foldl (fun map pair => put pair.1 pair.2 map) []

/-- A key has the value last put. -/
theorem get?_put (key other : κ) (value : α) (map : List (κ × α)) :
    get? other (put key value map) = if key = other then some value else get? other map := by
  induction map with
  | nil => simp [put, get?]
  | cons pair rest ih =>
    obtain ⟨k, a⟩ := pair
    by_cases hk : k = key
    · subst hk
      by_cases ho : k = other <;> simp [put, get?, ho]
    · by_cases ho : k = other
      · subst ho
        simp [put, get?, hk, Ne.symm hk]
      · simp [put, get?, hk, ho, ih]

/-- A value that is found is in the map. -/
theorem mem_of_get? {key : κ} {value : α} {map : List (κ × α)} (h : get? key map = some value) :
    (key, value) ∈ map := by
  induction map with
  | nil => cases h
  | cons pair rest ih =>
    obtain ⟨k, a⟩ := pair
    by_cases hk : k = key
    · simp only [get?, hk, if_true, Option.some.injEq] at h
      simp [hk, h]
    · simp only [get?, hk, if_false] at h
      exact List.mem_cons_of_mem _ (ih h)

/-- What is in a map was put last or was there before. -/
theorem mem_put {key other : κ} {value found : α} {map : List (κ × α)}
    (h : (other, found) ∈ put key value map) :
    (other = key ∧ found = value) ∨ (other, found) ∈ map := by
  induction map with
  | nil => exact Or.inl (by simpa [put] using h)
  | cons pair rest ih =>
    obtain ⟨k, a⟩ := pair
    by_cases hk : k = key
    · rw [put, if_pos hk] at h
      rcases List.mem_cons.1 h with heq | hmem
      · cases heq
        exact Or.inl ⟨hk, rfl⟩
      · exact Or.inr (List.mem_cons_of_mem _ hmem)
    · rw [put, if_neg hk] at h
      rcases List.mem_cons.1 h with heq | hmem
      · rw [heq]
        exact Or.inr List.mem_cons_self
      · rcases ih hmem with hnew | hold
        · exact Or.inl hnew
        · exact Or.inr (List.mem_cons_of_mem _ hold)

/-- A key without a value has the value that is put behind all others. -/
theorem get?_append_missing {key : κ} {map : List (κ × α)} (h : get? key map = none) (value : α) :
    get? key (map ++ [(key, value)]) = some value := by
  induction map with
  | nil => simp [get?]
  | cons pair rest ih =>
    obtain ⟨k, a⟩ := pair
    simp only [get?] at h
    split at h
    · cases h
    · rename_i hk
      simp only [List.cons_append, get?, hk, if_false]
      exact ih h

/-- A new key goes to the end. -/
theorem put_of_not_mem {key : κ} {map : List (κ × α)} (h : key ∉ map.map Prod.fst) (value : α) :
    put key value map = map ++ [(key, value)] := by
  induction map with
  | nil => rfl
  | cons pair rest ih =>
    obtain ⟨k, a⟩ := pair
    simp only [List.map_cons, List.mem_cons, not_or] at h
    simp [put, Ne.symm h.1, ih h.2]

/-- Pairs with distinct keys are a map. -/
theorem ofPairs_of_nodup {pairs : List (κ × α)} (h : (pairs.map Prod.fst).Nodup) :
    ofPairs pairs = pairs := by
  have step : ∀ (rest done : List (κ × α)), ((done ++ rest).map Prod.fst).Nodup →
      rest.foldl (fun map pair => put pair.1 pair.2 map) done = done ++ rest := by
    intro rest
    induction rest with
    | nil => simp
    | cons pair rest ih =>
      intro done hdone
      have hnew : pair.1 ∉ done.map Prod.fst := by
        intro hmem
        rw [List.map_append, List.nodup_append] at hdone
        exact hdone.2.2 _ hmem _ (by simp) rfl
      rw [List.foldl_cons, put_of_not_mem hnew, ih _ (by simpa using hdone)]
      simp
  exact step pairs [] (by simpa using h)

end LockPrefetch.Ordered
