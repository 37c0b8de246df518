import TokenSearch.Table.Cell

namespace TokenSearch.Cell

/-! The order of cells, where both hold a value of the same kind. -/

@[simp]
theorem order_integer (m n : Int) : order (.integer m) (.integer n) = compare m n := rfl

@[simp]
theorem order_text (s t : String) : order (.text s) (.text t) = compare s t := rfl

@[simp]
theorem precedes_integer (m n : Int) : precedes (.integer m) (.integer n) = decide (m ≤ n) := by
  rw [Bool.eq_iff_iff, decide_eq_true_iff, ← Std.isLE_compare]
  simp only [precedes, order_integer, bne_iff_ne, ne_eq]
  cases compare m n <;> simp

theorem compare_string_eq_gt {s t : String} : compare s t = .gt ↔ t < s :=
  compareOfLessAndEq_eq_gt String.le_antisymm String.le_total String.not_le _ _

@[simp]
theorem precedes_text (s t : String) : precedes (.text s) (.text t) = decide (s ≤ t) := by
  rw [Bool.eq_iff_iff, decide_eq_true_iff, precedes, order_text, bne_iff_ne, ne_eq,
    compare_string_eq_gt, String.not_lt]

@[simp]
theorem agrees_integer (m n : Int) : agrees (.integer m) (.integer n) = decide (m = n) := by
  rw [Bool.eq_iff_iff, decide_eq_true_iff]
  simp [agrees]

end TokenSearch.Cell
