import TokenSearch.Data.Assoc

namespace TokenSearch.Data.Assoc

/-! Maps that are made by putting one pair after the other: each key stands once, with the value that
was put last. -/

variable {κ α β : Type} [DecidableEq κ] {map : Assoc κ α} {key : κ}

theorem mem_of_get? {value : α} (found : get? map key = some value) : (key, value) ∈ map := by
  induction map with
  | nil => contradiction
  | cons pair rest ih =>
      obtain ⟨k, old⟩ := pair
      rw [get?] at found
      split at found
      · rename_i same
        cases found
        exact same ▸ List.mem_cons_self
      · exact List.mem_cons_of_mem _ (ih found)

theorem mem_keys_of_get? {value : α} (found : get? map key = some value) : key ∈ keys map :=
  List.mem_map_of_mem (mem_of_get? found)

theorem get?_append (first second : Assoc κ α) (key : κ) :
    get? (first ++ second) key = (get? first key).or (get? second key) := by
  induction first with
  | nil => rfl
  | cons pair rest ih =>
      obtain ⟨k, value⟩ := pair
      by_cases same : k = key
      · simp [get?, same]
      · simp [get?, same, ih]

/-- Of the pairs with one key, the last one counts. -/
theorem get?_foldl_put (change : α → β) (pairs : List (κ × α)) (map : Assoc κ β) (key : κ) :
    get? (pairs.foldl (fun map pair => put map pair.1 (change pair.2)) map) key =
      ((get? pairs.reverse key).map change).or (get? map key) := by
  induction pairs generalizing map with
  | nil => rfl
  | cons pair rest ih =>
      rw [List.foldl_cons, ih, get?_put, List.reverse_cons, get?_append]
      by_cases same : pair.1 = key
      · cases get? rest.reverse key <;> simp [get?, same]
      · cases get? rest.reverse key <;> simp [get?, same]

theorem mem_keys_put {other : κ} {value : α} :
    other ∈ keys (put map key value) ↔ other = key ∨ other ∈ keys map := by
  induction map with
  | nil => simp [put, keys]
  | cons pair rest ih =>
      obtain ⟨k, old⟩ := pair
      by_cases same : k = key
      · simp [put, keys, same]
      · simp only [keys] at ih
        simp only [put, keys, if_neg same, List.map_cons, List.mem_cons, ih]
        exact or_left_comm

theorem nodup_keys_put {value : α} (distinct : (keys map).Nodup) :
    (keys (put map key value)).Nodup := by
  induction map with
  | nil => simp [put, keys]
  | cons pair rest ih =>
      obtain ⟨k, old⟩ := pair
      obtain ⟨fresh, later⟩ := List.nodup_cons.mp distinct
      by_cases same : k = key
      · simpa [put, keys, same] using distinct
      · rw [put, if_neg same]
        refine List.nodup_cons.mpr ⟨fun known => ?_, ih later⟩
        rcases mem_keys_put.mp known with again | old
        · exact same again
        · exact fresh old

theorem nodup_keys_foldl_put (change : α → β) (pairs : List (κ × α)) {map : Assoc κ β}
    (distinct : (keys map).Nodup) :
    (keys (pairs.foldl (fun map pair => put map pair.1 (change pair.2)) map)).Nodup := by
  induction pairs generalizing map with
  | nil => exact distinct
  | cons pair rest ih => exact ih (nodup_keys_put distinct)

theorem mem_of_mem_put {value : α} {pair : κ × α} (member : pair ∈ put map key value) :
    pair = (key, value) ∨ pair ∈ map := by
  induction map with
  | nil => exact .inl (List.mem_singleton.mp member)
  | cons first rest ih =>
      obtain ⟨k, old⟩ := first
      rw [put] at member
      split at member
      · rename_i same
        rcases List.mem_cons.mp member with rfl | later
        · exact .inl (same ▸ rfl)
        · exact .inr (List.mem_cons_of_mem _ later)
      · rcases List.mem_cons.mp member with rfl | later
        · exact .inr List.mem_cons_self
        · exact (ih later).imp_right (List.mem_cons_of_mem _)

theorem mem_of_mem_foldl_put (change : α → β) {pairs : List (κ × α)} {map : Assoc κ β}
    {pair : κ × β}
    (member : pair ∈ pairs.foldl (fun map pair => put map pair.1 (change pair.2)) map) :
    pair ∈ map ∨ ∃ given ∈ pairs, pair = (given.1, change given.2) := by
  induction pairs generalizing map with
  | nil => exact .inl member
  | cons first rest ih =>
      rcases ih member with early | ⟨given, known, same⟩
      · rcases mem_of_mem_put early with rfl | old
        · exact .inr ⟨first, List.mem_cons_self, rfl⟩
        · exact .inl old
      · exact .inr ⟨given, List.mem_cons_of_mem _ known, same⟩

theorem get?_eq_none (absent : key ∉ keys map) : get? map key = none := by
  induction map with
  | nil => rfl
  | cons pair rest ih =>
      obtain ⟨k, value⟩ := pair
      rw [keys, List.map_cons, List.mem_cons, not_or] at absent
      rw [get?, if_neg (Ne.symm absent.1), ih absent.2]

theorem get?_reverse (distinct : (keys map).Nodup) (key : κ) :
    get? map.reverse key = get? map key := by
  induction map with
  | nil => rfl
  | cons pair rest ih =>
      obtain ⟨k, value⟩ := pair
      obtain ⟨fresh, later⟩ := List.nodup_cons.mp distinct
      rw [List.reverse_cons, get?_append, ih later]
      by_cases same : k = key
      · subst same
        simp [get?, get?_eq_none fresh]
      · simp [get?, same]

end TokenSearch.Data.Assoc
