import TokenSearch.Proofs.Data.Result
import TokenSearch.Proofs.Data.Slice
import TokenSearch.Proofs.Text.Utf8
import TokenSearch.Search.Hit

namespace TokenSearch.Search

/-! The text around a match: the lines that it touches, cut out of a source between two characters. -/

open Data Text

/-- The bytes in front of a place are a text. A place below zero counts from the end. -/
def Cut (source : Bytes) (place : Int) : Prop :=
  Utf8.WellFormed (source.take (clamp source.length place))

variable {source : Bytes} {start stop : Int}

theorem cut_natCast {place : Nat} : Cut source place ↔ Utf8.WellFormed (source.take place) := by
  have nonneg : ¬ (place : Int) < 0 := by omega
  rw [Cut, clamp, if_neg nonneg, Int.toNat_natCast]
  by_cases inside : place ≤ source.length
  · rw [Nat.min_eq_left inside]
  · have outside : source.length ≤ place := by omega
    rw [Nat.min_eq_right outside, List.take_length, List.take_of_length_le outside]

/-- What lies between two cuts is a text. -/
theorem decodeSlice_of_cuts (first : Cut source start) (last : Cut source stop) :
    ∃ chars, decodeSlice source start stop = .ok chars := by
  have formed : Utf8.WellFormed (slice source start stop) := by
    simp only [Cut] at first last
    simp only [slice]
    generalize clamp source.length start = m at first
    generalize clamp source.length stop = n at last
    by_cases ordered : m ≤ n
    · have split : source.take n = source.take m ++ (source.drop m).take (n - m) := by
        rw [← List.take_add, Nat.add_sub_of_le ordered]
      rw [split] at last
      exact .of_append first last
    · have none_ : n - m = 0 := by omega
      rw [none_, List.take_zero]
      exact .nil
  obtain ⟨chars, decoded⟩ := formed.decode_eq
  exact ⟨chars, by rw [decodeSlice, decoded]⟩

theorem lineFeed_small : lineFeed.toNat < 128 := by decide

theorem carriageReturn_small : carriageReturn.toNat < 128 := by decide

/-- Bytes without a line feed, or those in front of the first one. -/
theorem takeWhile_cases (bytes : Bytes) : bytes.takeWhile (· != lineFeed) = bytes ∨
    ∃ rest, bytes = bytes.takeWhile (· != lineFeed) ++ lineFeed :: rest := by
  have split := List.takeWhile_append_dropWhile (p := (· != lineFeed)) (l := bytes)
  cases behind : bytes.dropWhile (· != lineFeed) with
  | nil =>
      rw [behind, List.append_nil] at split
      exact .inl split
  | cons byte rest =>
      have ends := List.head?_dropWhile_not (· != lineFeed) bytes
      rw [behind] at ends split
      have feed : byte = lineFeed := by simpa using ends
      rw [feed] at split
      exact .inr ⟨rest, split.symm⟩

/-- The line of a cut begins at a cut: at the beginning, or behind a line feed. -/
theorem cut_lineStart (cut : Cut source stop) : Cut source (lineStart source stop) := by
  have before : slice source 0 stop = source.take (clamp source.length stop) := by
    simp [slice, clamp]
  have inside : source.take (lineStart source stop) =
      (slice source 0 stop).take (lineStart source stop) := by
    rw [before, List.take_take, Nat.min_eq_left]
    refine Nat.le_trans (Nat.sub_le _ _) ?_
    rw [before]
    exact List.length_take_le _ _
  rw [cut_natCast, inside, lineStart]
  rw [Cut, ← before] at cut
  generalize slice source 0 stop = bytes at cut
  -- Read backwards, the bytes stop at the line feed that ends the line before, if there is one.
  rcases takeWhile_cases bytes.reverse with all | ⟨rest, split⟩
  · rw [all, List.length_reverse, Nat.sub_self, List.take_zero]
    exact .nil
  · generalize bytes.reverse.takeWhile (· != lineFeed) = run at split
    have whole : bytes = (rest.reverse ++ [lineFeed]) ++ run.reverse := by
      rw [← List.reverse_reverse bytes, split]
      simp
    have length : bytes.length - run.length = (rest.reverse ++ [lineFeed]).length := by
      rw [whole, List.length_append, List.length_reverse, Nat.add_sub_cancel]
    rw [length, whole, List.take_left]
    rw [whole, List.append_assoc] at cut
    exact (cut.before lineFeed_small).append ⟨['\n'], rfl⟩

/-- A line ends at a cut: before a line feed, or at the end. -/
theorem cut_lineEnd (whole : Utf8.WellFormed source) (start : Int) :
    Cut source (lineEnd source start) := by
  rw [cut_natCast, lineEnd]
  generalize clamp source.length start = place
  have split := List.take_append_drop place source
  have run := List.prefix_iff_eq_take.mp
    (List.takeWhile_prefix (l := source.drop place) (· != lineFeed))
  rw [List.take_add, ← run]
  rcases takeWhile_cases (source.drop place) with all | ⟨rest, here⟩
  · rwa [all, split]
  · rw [← split, here, ← List.append_assoc] at whole
    exact whole.before lineFeed_small

theorem cut_dropReturn (whole : Utf8.WellFormed source) {stop : Nat} (cut : Cut source stop)
    (start : Nat) : Cut source (dropReturn source start stop) := by
  rw [dropReturn]
  split
  · rename_i ends
    obtain ⟨inside, here⟩ := List.getElem?_eq_some_iff.mp ends.2
    rw [← List.take_append_drop (stop - 1) source, List.drop_eq_getElem_cons inside, here] at whole
    exact cut_natCast.mpr (whole.before carriageReturn_small)
  · exact cut

end TokenSearch.Search
