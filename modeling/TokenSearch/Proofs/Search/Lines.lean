import Mathlib.Data.List.Basic
import TokenSearch.Proofs.Data.Slice
import TokenSearch.Proofs.Lexer.Place
import TokenSearch.Search.Hit

namespace TokenSearch

/-! The lines of a text, and those of them that a part of the text touches. -/

open Text

/-- The lines of a text from number `low` to number `high`. The first line has the number one. -/
def linesBetween (cs : List Char) (low high : Nat) : List (List Char) :=
  ((cs.splitOn '\n').drop (low - 1)).take (high + 1 - low)

theorem length_lines (cs : List Char) : (cs.splitOn '\n').length = cs.count '\n' + 1 := by
  induction cs with
  | nil => simp
  | cons c cs ih =>
      rw [List.splitOn_cons_eq_if_modifyHead]
      by_cases feed : c = '\n' <;> simp [feed, ih]

/-- A line starts behind the text `above`. -/
def StartsLine (above : List Char) : Prop :=
  above = [] ∨ ∃ others, above = others ++ ['\n']

/-- A line ends in front of the text `below`. -/
def EndsLine (below : List Char) : Prop :=
  below = [] ∨ ∃ others, below = '\n' :: others

theorem exists_line_end (cs : List Char) :
    ∃ line below, cs = line ++ below ∧ '\n' ∉ line ∧ EndsLine below := by
  induction cs with
  | nil => exact ⟨[], [], rfl, List.not_mem_nil, .inl rfl⟩
  | cons c cs ih =>
      by_cases feed : c = '\n'
      · exact ⟨[], c :: cs, rfl, List.not_mem_nil, .inr ⟨cs, by rw [feed]⟩⟩
      · obtain ⟨line, below, split, plain, ends⟩ := ih
        refine ⟨c :: line, below, by rw [split, List.cons_append], ?_, ends⟩
        rw [List.mem_cons, not_or]
        exact ⟨Ne.symm feed, plain⟩

theorem exists_line_start (cs : List Char) :
    ∃ above line, cs = above ++ line ∧ '\n' ∉ line ∧ StartsLine above := by
  obtain ⟨line, below, split, plain, ends⟩ := exists_line_end cs.reverse
  refine ⟨below.reverse, line.reverse, ?_, by simpa using plain, ?_⟩
  · rw [← List.reverse_append, ← split, List.reverse_reverse]
  · rcases ends with rfl | ⟨others, rfl⟩
    · exact .inl rfl
    · exact .inr ⟨others.reverse, List.reverse_cons ..⟩

theorem StartsLine.lines {above : List Char} (starts : StartsLine above) :
    ∃ front : List (List Char), front.length = above.count '\n' ∧
      ∀ rest, (above ++ rest).splitOn '\n' = front ++ rest.splitOn '\n' := by
  rcases starts with rfl | ⟨others, rfl⟩
  · exact ⟨[], rfl, fun rest => rfl⟩
  · refine ⟨others.splitOn '\n', by simp [length_lines], fun rest => ?_⟩
    rw [List.append_assoc, List.singleton_append, List.splitOn_append_cons_self]

theorem EndsLine.lines {below : List Char} (ends : EndsLine below) :
    ∃ back : List (List Char),
      ∀ front, (front ++ below).splitOn '\n' = front.splitOn '\n' ++ back := by
  rcases ends with rfl | ⟨others, rfl⟩
  · exact ⟨[], fun front => by rw [List.append_nil, List.append_nil]⟩
  · exact ⟨others.splitOn '\n', fun front => List.splitOn_append_cons_self front others⟩

/-- The lines of a part of a text that is made up of whole lines are lines of the text. -/
theorem linesBetween_eq {above below : List Char} (starts : StartsLine above)
    (ends : EndsLine below) (middle : List Char) :
    linesBetween (above ++ (middle ++ below)) (above.count '\n' + 1)
      (above.count '\n' + 1 + middle.count '\n') = middle.splitOn '\n' := by
  obtain ⟨front, size, first⟩ := starts.lines
  obtain ⟨back, last⟩ := ends.lines
  have count : above.count '\n' + 1 + middle.count '\n' + 1 - (above.count '\n' + 1) =
      (middle.splitOn '\n').length := by
    rw [length_lines]
    omega
  rw [linesBetween, first, last, count, Nat.add_sub_cancel, List.drop_left' size, List.take_left]

theorem getElem?_linesBetween {cs : List Char} {low high n : Nat} (positive : 0 < low)
    (after : low ≤ n) (before : n ≤ high) :
    (linesBetween cs low high)[n - low]? = (cs.splitOn '\n')[n - 1]? := by
  rw [linesBetween, List.getElem?_take_of_lt (by omega), List.getElem?_drop]
  congr 1
  omega

theorem not_mem_line {cs line : List Char} (member : line ∈ cs.splitOn '\n') : '\n' ∉ line := by
  induction cs generalizing line with
  | nil =>
      simp only [List.splitOn_nil, List.mem_singleton] at member
      simp [member]
  | cons c cs ih =>
      obtain ⟨first, others, split⟩ := List.exists_cons_of_ne_nil (List.splitOn_ne_nil '\n' cs)
      rw [List.splitOn_cons_eq_if_modifyHead, split] at member
      rw [split] at ih
      by_cases feed : c = '\n'
      · rw [if_pos (by simpa using feed)] at member
        rcases List.mem_cons.mp member with rfl | later
        · exact List.not_mem_nil
        · exact ih later
      · rw [if_neg (by simpa using feed), List.modifyHead_cons] at member
        rcases List.mem_cons.mp member with rfl | later
        · rw [List.mem_cons, not_or]
          exact ⟨Ne.symm feed, ih (List.mem_cons_self ..)⟩
        · exact ih (List.mem_cons_of_mem _ later)

/-- A piece of a text with the rest of the lines that it touches, and with the lines around those.
No carriage return ends the piece. -/
structure Framed (cs above lead piece trail below : List Char) : Prop where
  whole : cs = above ++ (lead ++ (piece ++ trail) ++ below)
  starts : StartsLine above
  lead : '\n' ∉ lead
  trail : '\n' ∉ trail
  ends : EndsLine below
  filled : piece ≠ []
  solid : piece.getLast? ≠ some '\r'

theorem exists_framed (before after : List Char) {piece : List Char} (filled : piece ≠ [])
    (solid : piece.getLast? ≠ some '\r') : ∃ above lead trail below, before = above ++ lead ∧
      Framed (before ++ (piece ++ after)) above lead piece trail below := by
  obtain ⟨above, lead, rfl, leadPlain, starts⟩ := exists_line_start before
  obtain ⟨trail, below, rfl, trailPlain, ends⟩ := exists_line_end after
  exact ⟨above, lead, trail, below, rfl, by simp, starts, leadPlain, trailPlain, ends, filled, solid⟩

namespace Hit

theorem pieces_eq (current cs : List Char) :
    pieces current cs = (cs.splitOn '\n').modifyHead (current.reverse ++ ·) := by
  induction cs generalizing current with
  | nil => simp [pieces]
  | cons c cs ih =>
      obtain ⟨line, others, split⟩ := List.exists_cons_of_ne_nil (List.splitOn_ne_nil '\n' cs)
      rw [pieces, List.splitOn_cons_eq_if_modifyHead, ih, ih, split]
      by_cases feed : c = '\n' <;> simp [feed]

theorem pieces_nil (cs : List Char) : pieces [] cs = cs.splitOn '\n' := by
  obtain ⟨line, others, split⟩ := List.exists_cons_of_ne_nil (List.splitOn_ne_nil '\n' cs)
  simp [pieces_eq, split]

theorem getElem?_numberFrom (number : Int) (lines : List String) (i : Nat) :
    (numberFrom number lines)[i]? = lines[i]?.map (fun line => (number + i, line)) := by
  induction lines generalizing number i with
  | nil => simp [numberFrom]
  | cons line rest ih =>
      cases i with
      | zero => simp [numberFrom]
      | succ i =>
          rw [numberFrom, List.getElem?_cons_succ, List.getElem?_cons_succ, ih]
          congr 1
          funext shown
          rw [Int.natCast_succ, Int.add_assoc, Int.add_comm 1]

theorem length_numberFrom (number : Int) (lines : List String) :
    (numberFrom number lines).length = lines.length := by
  induction lines generalizing number with
  | nil => rfl
  | cons line rest ih => rw [numberFrom, List.length_cons, List.length_cons, ih]

theorem withoutReturn_append (front : List Char) {line : List Char} (filled : line ≠ []) :
    withoutReturn (front ++ line) = front ++ withoutReturn line := by
  have last : (front ++ line).getLast? = line.getLast? := by
    rw [List.getLast?_append, List.getLast?_eq_some_getLast filled]
    rfl
  rw [withoutReturn, withoutReturn, last]
  split
  · exact List.dropLast_append_of_ne_nil filled
  · rfl

/-- What stands before the last line end of a piece and its lines is kept. -/
theorem withoutReturn_framed {text above lead piece trail below : List Char}
    (framed : Framed text above lead piece trail below) :
    ∃ more, withoutReturn (lead ++ (piece ++ trail)) = lead ++ (piece ++ more) := by
  by_cases ended : trail = []
  · subst ended
    have last : (lead ++ piece).getLast? ≠ some '\r' := by
      rw [List.getLast?_append_of_ne_nil _ framed.filled]
      exact framed.solid
    refine ⟨[], ?_⟩
    rw [List.append_nil, withoutReturn, if_neg last]
  · refine ⟨withoutReturn trail, ?_⟩
    rw [← List.append_assoc, withoutReturn_append _ ended, List.append_assoc]

/-- A line without some of the carriage returns at its end. -/
def Trimmed (line shown : List Char) : Prop :=
  ∃ n, line = shown ++ List.replicate n '\r'

theorem trimmed_withoutReturn (line : List Char) : Trimmed line (withoutReturn line) := by
  rw [withoutReturn]
  split
  · rename_i last
    obtain ⟨front, rfl⟩ := List.getLast?_eq_some_iff.mp last
    exact ⟨1, by rw [List.dropLast_concat]; rfl⟩
  · exact ⟨0, (List.append_nil line).symm⟩

theorem Trimmed.trans {line shown again : List Char} (first : Trimmed line shown)
    (second : Trimmed shown again) : Trimmed line again := by
  obtain ⟨n, rfl⟩ := first
  obtain ⟨m, rfl⟩ := second
  exact ⟨m + n, by rw [List.append_assoc, List.replicate_append_replicate]⟩

theorem Trimmed.subset {line shown : List Char} (trimmed : Trimmed line shown) : shown ⊆ line := by
  obtain ⟨n, rfl⟩ := trimmed
  exact List.subset_append_left ..

theorem withoutReturn_twice {line : List Char} (single : ¬ ['\r', '\r'] <:+ line) :
    withoutReturn (withoutReturn line) = withoutReturn line := by
  by_cases last : line.getLast? = some '\r'
  · obtain ⟨front, rfl⟩ := List.getLast?_eq_some_iff.mp last
    have once : withoutReturn (front ++ ['\r']) = front := by
      rw [withoutReturn, if_pos last, List.dropLast_concat]
    rw [once, withoutReturn, if_neg]
    intro again
    obtain ⟨others, rfl⟩ := List.getLast?_eq_some_iff.mp again
    exact single ⟨others, by simp⟩
  · have same : withoutReturn line = line := if_neg last
    rw [same, same]

/-- Only the last line of a text loses the carriage return that ends the text. -/
theorem lines_withoutReturn (cs : List Char) : ∃ front line,
    cs.splitOn '\n' = front ++ [line] ∧
      (withoutReturn cs).splitOn '\n' = front ++ [withoutReturn line] := by
  obtain ⟨above, line, rfl, plain, starts⟩ := exists_line_start cs
  obtain ⟨front, _, lines⟩ := starts.lines
  refine ⟨front, line, by rw [lines, List.splitOn_eq_singleton plain], ?_⟩
  have same : withoutReturn (above ++ line) = above ++ withoutReturn line := by
    by_cases filled : line = []
    · subst filled
      rcases starts with rfl | ⟨others, rfl⟩
      · rfl
      · simp [withoutReturn]
    · exact withoutReturn_append above filled
  rw [same, lines, List.splitOn_eq_singleton]
  exact fun member => plain ((trimmed_withoutReturn line).subset member)

variable {hit : Hit} {cs : List Char}

theorem length_numberedLines (text : hit.text.toList = withoutReturn cs) :
    hit.numberedLines.length = cs.count '\n' + 1 := by
  obtain ⟨front, line, whole, shown⟩ := lines_withoutReturn cs
  rw [numberedLines, length_numberFrom, List.length_map, pieces_nil, text, ← length_lines, shown,
    whole, List.length_append, List.length_append, List.length_singleton, List.length_singleton]

/-- What a line is shown as: without carriage returns at its end. -/
structure ShownAs (line : List Char) (shown : String) : Prop where
  trimmed : Trimmed line shown.toList
  exact_ : ¬ ['\r', '\r'] <:+ line → shown.toList = withoutReturn line
  plain : '\n' ∉ shown.toList

theorem getElem?_numberedLines (text : hit.text.toList = withoutReturn cs) {i : Nat}
    {line : List Char} (held : (cs.splitOn '\n')[i]? = some line) :
    ∃ shown, hit.numberedLines[i]? = some (hit.startLine + i, shown) ∧ ShownAs line shown := by
  obtain ⟨front, last, whole, cut⟩ := lines_withoutReturn cs
  have noFeed := not_mem_line (List.mem_of_getElem? held)
  have numbered {part : List Char} (kept : (front ++ [withoutReturn last])[i]? = some part) :
      hit.numberedLines[i]? = some (hit.startLine + i, String.ofList (withoutReturn part)) := by
    rw [numberedLines, getElem?_numberFrom, List.getElem?_map, pieces_nil, text, cut, kept]
    rfl
  rw [whole] at held
  by_cases inside : i < front.length
  · refine ⟨String.ofList (withoutReturn line), numbered ?_, ?_⟩
    · rwa [List.getElem?_append_left inside] at held ⊢
    · have trimmed := trimmed_withoutReturn line
      exact ⟨by rwa [String.toList_ofList], fun _ => String.toList_ofList,
        by rw [String.toList_ofList]; exact fun member => noFeed (trimmed.subset member)⟩
  · obtain ⟨bound, same⟩ := List.getElem?_eq_some_iff.mp held
    have place : i = front.length := by
      rw [List.length_append, List.length_singleton] at bound
      omega
    subst place
    obtain rfl : last = line := by simpa using same
    -- the last line has lost a carriage return with the text, and may lose one more as a line
    refine ⟨String.ofList (withoutReturn (withoutReturn last)), numbered (by simp), ?_⟩
    have trimmed := (trimmed_withoutReturn last).trans (trimmed_withoutReturn (withoutReturn last))
    exact ⟨by rwa [String.toList_ofList],
      fun single => by rw [String.toList_ofList, withoutReturn_twice single],
      by rw [String.toList_ofList]; exact fun member => noFeed (trimmed.subset member)⟩

end Hit

end TokenSearch
