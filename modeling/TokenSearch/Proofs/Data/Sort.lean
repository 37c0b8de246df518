namespace TokenSearch.Data

/-! Sorting by an order that is known only on the members of a list. -/

variable {α : Type}

theorem mergeSort_congr {r s : α → α → Bool} {xs : List α}
    (same : ∀ a ∈ xs, ∀ b ∈ xs, r a b = s a b) : xs.mergeSort r = xs.mergeSort s := by
  simpa using List.map_mergeSort (f := id) same

theorem eq_of_ascending {key : α → Int} {xs : List α}
    (ascending : xs.Pairwise (fun a b => key a < key b)) {a b : α} (first : a ∈ xs)
    (second : b ∈ xs) (same : key a = key b) : a = b := by
  induction ascending with
  | nil => contradiction
  | cons below _ ih =>
      rcases List.mem_cons.mp first with rfl | inFirst <;>
        rcases List.mem_cons.mp second with rfl | inSecond
      · rfl
      · exact absurd same (Int.ne_of_lt (below b inSecond))
      · exact absurd same (Ne.symm (Int.ne_of_lt (below a inFirst)))
      · exact ih inFirst inSecond

/-- A list in which an ascending list was shuffled is sorted back to that list. -/
theorem mergeSort_eq_of_perm {r : α → α → Bool} {xs sorted : List α} (key : α → Int)
    (order : ∀ a ∈ xs, ∀ b ∈ xs, r a b = decide (key a ≤ key b))
    (ascending : sorted.Pairwise (fun a b => key a < key b)) (shuffled : sorted.Perm xs) :
    xs.mergeSort r = sorted := by
  rw [mergeSort_congr order]
  have perm := (List.mergeSort_perm xs (fun a b => decide (key a ≤ key b))).trans shuffled.symm
  refine @List.Perm.eq_of_pairwise _ (fun a b => key a ≤ key b) _ _ ?_ ?_ ?_ perm
  · intro a b first second lower upper
    exact eq_of_ascending ascending (perm.subset first) second (Int.le_antisymm lower upper)
  · refine (List.pairwise_mergeSort ?_ ?_ xs).imp (fun {a b} holds => of_decide_eq_true holds)
    · intro a b c first second
      simp only [decide_eq_true_eq] at first second ⊢
      omega
    · intro a b
      simp only [Bool.or_eq_true, decide_eq_true_eq]
      omega
  · exact ascending.imp (fun {a b} less => Int.le_of_lt less)

theorem ascending_mergeSort {κ : Type} [LE κ] [LT κ] [DecidableLE κ] [Std.IsLinearOrder κ]
    [Std.LawfulOrderLT κ] (key : α → κ) {xs : List α} (distinct : (xs.map key).Nodup) :
    ((xs.mergeSort (fun a b => decide (key a ≤ key b))).map key).Pairwise (· < ·) := by
  have sorted : (xs.mergeSort (fun a b => decide (key a ≤ key b))).Pairwise
      (fun a b => decide (key a ≤ key b) = true) := by
    refine List.pairwise_mergeSort ?_ ?_ xs
    · intro a b c first second
      rw [decide_eq_true_eq] at first second ⊢
      exact Std.le_trans first second
    · intro a b
      rw [Bool.or_eq_true, decide_eq_true_eq, decide_eq_true_eq]
      exact Std.le_total ..
  have apart : ((xs.mergeSort (fun a b => decide (key a ≤ key b))).map key).Nodup :=
    ((List.mergeSort_perm xs _).map key).nodup_iff.mpr distinct
  rw [List.Nodup, List.pairwise_map] at apart
  rw [List.pairwise_map]
  refine (sorted.and apart).imp ?_
  intro a b both
  exact Std.lt_of_le_of_ne (of_decide_eq_true both.1) both.2

theorem nodup_of_ascending {κ : Type} [LE κ] [LT κ] [Std.IsLinearOrder κ] [Std.LawfulOrderLT κ]
    {keys : List κ} (ascending : keys.Pairwise (· < ·)) : keys.Nodup := by
  refine ascending.imp ?_
  rintro a b less rfl
  exact Std.lt_irrefl less

/-- Lists in the order of their keys that have the same members are the same. -/
theorem eq_of_ascending_keys {κ : Type} [LE κ] [LT κ] [Std.IsLinearOrder κ] [Std.LawfulOrderLT κ]
    (key : α → κ) {xs ys : List α}
    (first : (xs.map key).Pairwise (· < ·)) (second : (ys.map key).Pairwise (· < ·))
    (same : ∀ a, a ∈ xs ↔ a ∈ ys) : xs = ys := by
  have distinct {zs : List α} (sorted : (zs.map key).Pairwise (· < ·)) : zs.Nodup := by
    refine (List.pairwise_map.mp (nodup_of_ascending sorted)).imp ?_
    rintro a b differ rfl
    exact differ rfl
  have perm := (List.perm_ext_iff_of_nodup (distinct first) (distinct second)).mpr same
  rw [List.pairwise_map] at first second
  refine @List.Perm.eq_of_pairwise _ (fun a b => key a < key b) _ _ ?_ first second perm
  intro a b _ _ less greater
  exact absurd (Std.lt_trans less greater) Std.lt_irrefl

end TokenSearch.Data
