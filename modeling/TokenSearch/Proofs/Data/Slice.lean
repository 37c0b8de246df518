import TokenSearch.Data.Slice

namespace TokenSearch.Data

/-! Slices and places whose bounds lie inside the list. -/

theorem at?_natCast {α : Type} (xs : List α) (place : Nat) : at? xs place = xs[place]? := by
  have nonneg : ¬ (place : Int) < 0 := by omega
  rw [at?, if_neg nonneg, Int.toNat_natCast]

theorem slice_map {α β : Type} (f : α → β) (xs : List α) (start stop : Int) :
    slice (xs.map f) start stop = (slice xs start stop).map f := by
  simp [slice]

/-- Bounds that are not below zero may lie outside the list. -/
theorem slice_natCast {α : Type} (xs : List α) (start stop : Nat) :
    slice xs start stop = (xs.drop start).take (stop - start) := by
  have first : ¬ (start : Int) < 0 := by omega
  have last : ¬ (stop : Int) < 0 := by omega
  simp only [slice, clamp, if_neg first, if_neg last, Int.toNat_natCast]
  by_cases inside : start ≤ xs.length
  · rw [Nat.min_eq_left inside, List.take_eq_take_iff, List.length_drop]
    omega
  · have outside : xs.length ≤ start := by omega
    rw [Nat.min_eq_right outside, List.drop_length, List.drop_eq_nil_of_le outside, List.take_nil,
      List.take_nil]

theorem slice_middle {α : Type} (before piece rest : List α) :
    slice (before ++ (piece ++ rest)) before.length (before ++ piece).length = piece := by
  have ordered : (before.length : Int) ≤ (before ++ piece).length := by
    simp only [List.length_append]
    omega
  have inside : ((before ++ piece).length : Int) ≤ (before ++ (piece ++ rest)).length := by
    simp only [List.length_append]
    omega
  rw [slice_of_nonneg ordered (Int.natCast_nonneg _) inside, Int.toNat_natCast,
    Int.toNat_natCast, List.drop_left, List.length_append, Nat.add_sub_cancel_left, List.take_left]

theorem slice_at {α : Type} {xs : List α} {first width : Nat} (inside : first + width ≤ xs.length) :
    slice xs first (first + width) = (xs.drop first).take width := by
  rw [slice_of_nonneg (by omega) (by omega) (by omega)]
  congr 1
  omega

theorem slice_slice {α : Type} {xs : List α} {first stop start width : Int} (nonneg : 0 ≤ first)
    (inside : stop ≤ xs.length) (after : first ≤ start) (before : start + width ≤ stop)
    (positive : 0 ≤ width) :
    slice (slice xs first stop) (start - first) (start - first + width) =
      slice xs start (start + width) := by
  have size : (slice xs first stop).length = (stop - first).toNat := by
    rw [slice_of_nonneg (by omega) nonneg inside, List.length_take, List.length_drop]
    omega
  rw [slice_of_nonneg (by omega) (by omega) (by omega),
    slice_of_nonneg (by omega) nonneg inside,
    slice_of_nonneg (by omega) (by omega) (by omega), List.drop_take, List.drop_drop,
    List.take_take]
  congr 1
  · omega
  · congr 1
    omega

/-- Where a slice holds anything, it starts inside the list. -/
theorem lt_length_of_slice {α : Type} {xs : List α} {start stop : Int}
    (some_ : slice xs start stop ≠ []) : start < xs.length := by
  refine Int.not_le.mp (fun outside => ?_)
  have behind : clamp xs.length start = xs.length := by
    simp only [clamp]
    split <;> omega
  exact some_ (by simp [slice, behind])

end TokenSearch.Data
