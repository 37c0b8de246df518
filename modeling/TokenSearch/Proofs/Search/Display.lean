import TokenSearch.Proofs.Lexer.Span
import TokenSearch.Proofs.Search.Fragment
import TokenSearch.Proofs.Search.Lines
import TokenSearch.Proofs.Search.Render

namespace TokenSearch

/-! A match is shown with the lines of its file that it touches. -/

open Data Lexer Text

namespace Search

variable {above lead trail below : List Char}

theorem lineStart_eq (source : Bytes) (stop : Int) :
    lineStart source stop = TokenSearch.lineStart (slice source 0 stop) := by
  have same : (fun byte : UInt8 => byte != lineFeed) = fun byte => decide (byte ≠ TokenSearch.lineFeed) := by
    funext byte
    rw [bne, Bool.eq_iff_iff]
    simp only [Bool.not_eq_true', beq_eq_false_iff_ne, decide_eq_true_eq]
    rfl
  rw [lineStart, TokenSearch.lineStart, same]

theorem lineStart_encode (starts : StartsLine above) (plain : '\n' ∉ lead) (rest : List Char) :
    lineStart (Utf8.encode (above ++ (lead ++ rest))) (Utf8.encode (above ++ lead)).length =
      (Utf8.encode above).length := by
  have whole : Utf8.encode (above ++ (lead ++ rest)) =
      [] ++ (Utf8.encode (above ++ lead) ++ Utf8.encode rest) := by
    rw [← List.append_assoc, Utf8.encode_append (above ++ lead), List.nil_append]
  have front : slice (Utf8.encode (above ++ (lead ++ rest))) 0 (Utf8.encode (above ++ lead)).length =
      Utf8.encode above ++ Utf8.encode lead := by
    rw [whole, ← Utf8.encode_append above lead]
    exact slice_middle [] (Utf8.encode (above ++ lead)) (Utf8.encode rest)
  rw [lineStart_eq, front, lineStart_append_plain (lineFeed_mem_encode.not.mpr plain)]
  rcases starts with rfl | ⟨others, rfl⟩
  · rfl
  · have feed : Utf8.encode ['\n'] = [TokenSearch.lineFeed] := rfl
    rw [Utf8.encode_append, feed, lineStart_append_lineFeed, List.length_append,
      List.length_singleton]

theorem lineEnd_encode (ends : EndsLine below) (plain : '\n' ∉ trail) (front : List Char) :
    lineEnd (Utf8.encode (front ++ (trail ++ below))) (Utf8.encode front).length =
      (Utf8.encode (front ++ trail)).length := by
  have inside : ∀ byte ∈ Utf8.encode trail, (byte != lineFeed) = true := by
    intro byte member
    have other : byte ≠ lineFeed := by
      rintro rfl
      exact plain (lineFeed_mem_encode.mp member)
    simpa using other
  have stops : (Utf8.encode below).takeWhile (· != lineFeed) = [] := by
    rcases ends with rfl | ⟨others, rfl⟩ <;> rfl
  have start : clamp (Utf8.encode (front ++ (trail ++ below))).length
      (Utf8.encode front).length = (Utf8.encode front).length := by
    have nonneg : ¬ ((Utf8.encode front).length : Int) < 0 := by omega
    rw [clamp, if_neg nonneg, Int.toNat_natCast, Utf8.encode_append, List.length_append]
    omega
  rw [lineEnd, start, Utf8.encode_append front, List.drop_left, Utf8.encode_append trail,
    List.takeWhile_append_of_pos inside, stops, List.append_nil, Utf8.encode_append front trail,
    List.length_append]

theorem eq_return_of_mem {c : Char} (member : carriageReturn ∈ String.utf8EncodeChar c) :
    c = '\r' :=
  Utf8.eq_of_mem_utf8EncodeChar member carriageReturn_small rfl

theorem dropReturn_encode {middle : List Char} (filled : middle ≠ []) (above below : List Char) :
    dropReturn (Utf8.encode (above ++ (middle ++ below))) (Utf8.encode above).length
        (Utf8.encode (above ++ middle)).length =
      (Utf8.encode (above ++ Hit.withoutReturn middle)).length := by
  obtain ⟨front, c, rfl⟩ := (List.eq_nil_or_concat' middle).resolve_left filled
  have bytes : Utf8.encode (above ++ (front ++ [c])) =
      Utf8.encode (above ++ front) ++ String.utf8EncodeChar c := by
    rw [← List.append_assoc, Utf8.encode_append, Utf8.encode_cons, Utf8.encode_nil, List.append_nil]
  have positive : 0 < (String.utf8EncodeChar c).length :=
    List.length_pos_iff.mpr (utf8EncodeChar_ne_nil c)
  have last : (Utf8.encode (above ++ (front ++ [c] ++ below)))[
      (Utf8.encode (above ++ (front ++ [c]))).length - 1]? = (String.utf8EncodeChar c).getLast? := by
    rw [← List.append_assoc, Utf8.encode_append, List.getElem?_append_left, ← List.getLast?_eq_getElem?,
      bytes, List.getLast?_append_of_ne_nil _ (utf8EncodeChar_ne_nil c)]
    rw [bytes, List.length_append]
    omega
  rw [dropReturn, last]
  by_cases carriage : c = '\r'
  · subst carriage
    have dropped : Hit.withoutReturn (front ++ ['\r']) = front := by simp [Hit.withoutReturn]
    have single : String.utf8EncodeChar '\r' = [carriageReturn] := rfl
    have longer : (Utf8.encode above).length < (Utf8.encode (above ++ (front ++ ['\r']))).length := by
      rw [bytes, Utf8.encode_append, List.length_append, List.length_append]
      omega
    rw [if_pos ⟨longer, rfl⟩, dropped, bytes, single, List.length_append]
    exact Nat.add_sub_cancel ..
  · have kept : Hit.withoutReturn (front ++ [c]) = front ++ [c] := by
      simp [Hit.withoutReturn, carriage]
    rw [kept, if_neg]
    intro ends
    exact carriage (eq_return_of_mem (List.mem_of_getLast? ends.2))

theorem decodeSlice_encode (before piece after : List Char) :
    decodeSlice (Utf8.encode (before ++ (piece ++ after))) (Utf8.encode before).length
      (Utf8.encode (before ++ piece)).length = .ok piece := by
  rw [decodeSlice, Utf8.encode_append, Utf8.encode_append piece, Utf8.encode_append before piece,
    slice_middle, Utf8.decode_encode]

/-- What is shown of a match whose tokens cover a piece of the source. -/
theorem renderFrom_eq {reader : Reader} {found : Match} {entry : FileEntry} {cs piece : List Char}
    {first : Token} {rest : List Token} {low high : Int}
    (framed : Framed cs above lead piece trail below)
    (window : reader.window found.file found.first (found.last + 1) =
      .ok ((first :: rest).map Token.seen))
    (known : reader.entry found.file = .ok entry)
    (least : found.startLine = .integer low) (greatest : found.endLine = .integer high)
    (here : first.start = Position.start.advance (above ++ lead))
    (there : (rest.getLastD first).stop = Position.start.advance (above ++ lead ++ piece)) :
    renderFrom reader found (Utf8.encode cs) = .ok {
      path := pathText entry.path
      file := found.file
      startLine := low
      endLine := high
      first := found.first
      last := found.last
      text := String.ofList (Hit.withoutReturn (lead ++ (piece ++ trail)))
      highlightStart := lead.length
      highlightEnd := lead.length + piece.length } := by
  generalize bytes : Utf8.encode cs = source
  have whole : source = Utf8.encode (above ++ (lead ++ (piece ++ trail) ++ below)) := by
    rw [← bytes, framed.whole]
  have begins : first.start.offset = (Utf8.encode (above ++ lead)).length := by
    rw [here, Position.start_advance, Position.behind_offset]
  have stops : (rest.getLastD first).stop.offset = (Utf8.encode (above ++ lead ++ piece)).length := by
    rw [there, Position.start_advance, Position.behind_offset]
  have last : (rest.map Token.seen).getLastD first.seen = (rest.getLastD first).seen := by
    rw [List.getLastD_eq_getLast?, List.getLastD_eq_getLast?, List.getLast?_map]
    cases rest.getLast? <;> rfl
  have filled : lead ++ (piece ++ trail) ≠ [] := by simp [framed.filled]
  have start : lineStart source first.start.offset = (Utf8.encode above).length := by
    have split : source = Utf8.encode (above ++ (lead ++ (piece ++ trail ++ below))) := by
      rw [whole, List.append_assoc lead]
    rw [split, begins]
    exact lineStart_encode framed.starts framed.lead _
  have stop : dropReturn source (Utf8.encode above).length
      (lineEnd source (rest.getLastD first).stop.offset) =
        (Utf8.encode (above ++ Hit.withoutReturn (lead ++ (piece ++ trail)))).length := by
    have split : source = Utf8.encode (above ++ lead ++ piece ++ (trail ++ below)) := by
      rw [whole]
      simp
    have lineStop : lineEnd source (rest.getLastD first).stop.offset =
        (Utf8.encode (above ++ (lead ++ (piece ++ trail)))).length := by
      rw [split, stops, lineEnd_encode framed.ends framed.trail]
      simp
    rw [lineStop, whole]
    exact dropReturn_encode filled above below
  have before : decodeSlice source (Utf8.encode above).length first.start.offset = .ok lead := by
    rw [whole, begins, List.append_assoc lead]
    exact decodeSlice_encode above lead _
  have marked : decodeSlice source first.start.offset (rest.getLastD first).stop.offset =
      .ok piece := by
    have split : source = Utf8.encode (above ++ lead ++ (piece ++ (trail ++ below))) := by
      rw [whole]
      simp
    rw [split, begins, stops]
    exact decodeSlice_encode (above ++ lead) piece _
  have text : decodeSlice source (Utf8.encode above).length
      (Utf8.encode (above ++ Hit.withoutReturn (lead ++ (piece ++ trail)))).length =
        .ok (Hit.withoutReturn (lead ++ (piece ++ trail))) := by
    obtain ⟨n, cut⟩ := Hit.trimmed_withoutReturn (lead ++ (piece ++ trail))
    have split : source = Utf8.encode (above ++ (Hit.withoutReturn (lead ++ (piece ++ trail)) ++
        (List.replicate n '\r' ++ below))) := by
      rw [whole, ← List.append_assoc (Hit.withoutReturn _), ← cut]
    rw [split]
    exact decodeSlice_encode above _ _
  have lines : linesOf found = .ok (low, high) := by
    rw [linesOf, least, greatest]
    rfl
  have firstOffset : offsetOf first.seen.start.offset = .ok first.start.offset := rfl
  have lastOffset : offsetOf (rest.getLastD first).seen.stop.offset =
      .ok (rest.getLastD first).stop.offset := rfl
  simp only [renderFrom, window, List.map_cons, ok_bind, last, firstOffset, lastOffset, start, stop,
    before, marked, known, text, lines]
  rfl

end Search

namespace Hit

theorem length_toString_le {m n : Nat} (below : m ≤ n) :
    (toString m).length ≤ (toString n).length := by
  rw [Nat.toString_eq_ofList_toDigits, Nat.toString_eq_ofList_toDigits, String.length_ofList,
    String.length_ofList]
  have positive : 0 < (Nat.toDigits 10 n).length := List.length_pos_iff.mpr Nat.toDigits_ne_nil
  rw [Nat.length_toDigits_le_iff (by decide) positive]
  exact below.trans_lt ((Nat.length_toDigits_le_iff (by decide) positive).mp (Nat.le_refl _))

/-- The rows of a hit as it is printed: a number as wide as the last one, and the line. -/
structure Row (high n : Nat) (shown row : String) : Prop where
  column : ∃ blanks, row = String.ofList (List.replicate blanks ' ') ++ toString n ++ ": " ++ shown ∧
    blanks + (toString n).length = (toString high).length

theorem row_padLeft {high n : Nat} (below : n ≤ high) (shown : String) :
    Row high n shown (padLeft (toString (high : Int)).length (toString (n : Int)) ++ ": " ++ shown) := by
  have fits : (toString n).length ≤ (toString high).length := length_toString_le below
  exact ⟨(toString high).length - (toString n).length, rfl, Nat.sub_add_cancel fits⟩

/-- What a hit shows of a text: its lines from number `low` to number `high`, with the part from the
token `first` to the token `last` marked in them. -/
structure Displays (cs : List Char) (first last : Token) (low high : Nat) (hit : Hit) : Prop where
  range : 1 ≤ low ∧ low ≤ high ∧ high ≤ (cs.splitOn '\n').length
  numbers : hit.startLine = low ∧ hit.endLine = high
  text : hit.text.toList = withoutReturn (['\n'].intercalate (linesBetween cs low high))
  highlighted : Utf8.decodeString (slice (Utf8.encode cs) first.start.offset last.stop.offset) =
    .ok hit.highlighted
  inside : 0 ≤ hit.highlightStart ∧ hit.highlightStart < hit.highlightEnd ∧
    hit.highlightEnd ≤ hit.text.length
  count : hit.numberedLines.length = high + 1 - low
  numbered : ∀ n, low ≤ n → n ≤ high → ∃ line shown, (cs.splitOn '\n')[n - 1]? = some line ∧
    hit.numberedLines[n - low]? = some ((n : Int), shown) ∧ ShownAs line shown
  formatted : ∃ rows, hit.format = "\n".intercalate
      ((hit.path ++ ":" ++ (if low = high then toString low else toString low ++ "-" ++ toString high))
        :: rows) ++ "\n\n" ∧
    rows.length = high + 1 - low ∧ ∀ n, low ≤ n → n ≤ high → ∃ shown row,
      hit.numberedLines[n - low]? = some ((n : Int), shown) ∧ rows[n - low]? = some row ∧
        Row high n shown row

/-- A hit whose text is some whole lines, and whose marks are those of a piece of them, shows that
piece. -/
theorem displays_of_framed {cs above lead piece trail below : List Char} {first last : Token}
    {low high : Nat} {hit : Hit} (framed : Framed cs above lead piece trail below)
    (here : first.start = Position.start.advance (above ++ lead))
    (there : last.stop = Position.start.advance (above ++ lead ++ piece))
    (least : first.start.line = low) (greatest : last.stop.line = high)
    (startLine : hit.startLine = low) (endLine : hit.endLine = high)
    (text : hit.text = String.ofList (withoutReturn (lead ++ (piece ++ trail))))
    (highlightStart : hit.highlightStart = lead.length)
    (highlightEnd : hit.highlightEnd = lead.length + piece.length) :
    Displays cs first last low high hit := by
  have noFeed := List.count_eq_zero.mpr framed.lead
  have noFeed' := List.count_eq_zero.mpr framed.trail
  have origin : Position.start.line = 1 := rfl
  have lowest : low = above.count '\n' + 1 := by
    rw [here, line_advance, origin, List.count_append] at least
    omega
  have highest : high = above.count '\n' + 1 + (lead ++ (piece ++ trail)).count '\n' := by
    rw [there, line_advance, origin, List.count_append, List.count_append] at greatest
    rw [List.count_append, List.count_append]
    omega
  have lines : linesBetween cs low high = (lead ++ (piece ++ trail)).splitOn '\n' := by
    rw [framed.whole, lowest, highest]
    exact linesBetween_eq framed.starts framed.ends _
  have size : high ≤ (cs.splitOn '\n').length := by
    rw [length_lines, framed.whole, List.count_append, List.count_append]
    omega
  have spelled : hit.text.toList = withoutReturn (lead ++ (piece ++ trail)) := by
    rw [text, String.toList_ofList]
  have count : hit.numberedLines.length = high + 1 - low := by
    rw [length_numberedLines spelled]
    omega
  have numbered : ∀ n, low ≤ n → n ≤ high → ∃ line shown, (cs.splitOn '\n')[n - 1]? = some line ∧
      hit.numberedLines[n - low]? = some ((n : Int), shown) ∧ ShownAs line shown := by
    intro n after before
    have held : (cs.splitOn '\n')[n - 1]? = some _ := List.getElem?_eq_getElem (by omega)
    have inside : (linesBetween cs low high)[n - low]? = (cs.splitOn '\n')[n - 1]? :=
      getElem?_linesBetween (by omega) after before
    rw [lines, held] at inside
    obtain ⟨shown, found, shownAs⟩ := getElem?_numberedLines spelled inside
    refine ⟨_, shown, held, ?_, shownAs⟩
    rw [found, startLine]
    congr 2
    omega
  obtain ⟨more, kept⟩ := withoutReturn_framed framed
  have positive := List.length_pos_iff.mpr framed.filled
  refine ⟨⟨by omega, by omega, size⟩, ⟨startLine, endLine⟩, ?_, ?_, ?_, count, numbered, ?_⟩
  · rw [spelled, lines, List.intercalate_splitOn]
  · have bytes : slice (Utf8.encode cs) first.start.offset last.stop.offset = Utf8.encode piece := by
      have whole : Utf8.encode cs = Utf8.encode (above ++ lead) ++
          (Utf8.encode piece ++ Utf8.encode (trail ++ below)) := by
        rw [framed.whole, ← Utf8.encode_append, ← Utf8.encode_append]
        simp
      rw [here, there, Position.start_advance, Position.start_advance, Position.behind_offset,
        Position.behind_offset, whole, Utf8.encode_append (above ++ lead)]
      exact slice_middle _ _ _
    have marked : slice hit.text.toList hit.highlightStart hit.highlightEnd = piece := by
      have width : (lead.length : Int) + piece.length = (lead ++ piece).length := by
        rw [List.length_append]
        omega
      rw [spelled, kept, highlightStart, highlightEnd, width]
      exact slice_middle lead piece more
    rw [highlighted, marked, bytes, Utf8.decodeString, Utf8.decode_encode]
    rfl
  · have length : hit.text.length = (lead ++ (piece ++ more)).length := by
      rw [text, kept, String.length_ofList]
    rw [highlightStart, highlightEnd, length, List.length_append, List.length_append]
    omega
  · refine ⟨hit.numberedLines.map (fun row =>
      padLeft (toString hit.endLine).length (toString row.1) ++ ": " ++ row.2), ?_, ?_, ?_⟩
    · simp only [format, startLine, endLine, Int.natCast_inj]
      rfl
    · rw [List.length_map, count]
    · intro n after before
      obtain ⟨line, shown, _, found, _⟩ := numbered n after before
      refine ⟨shown, _, found, ?_, row_padLeft before shown⟩
      rw [List.getElem?_map, found, endLine]
      rfl

end Hit

theorem renderFrom_displays {above lead trail below : List Char} {reader : Reader} {found : Match}
    {entry : FileEntry} {cs piece : List Char} {first : Token} {rest : List Token} {low high : Nat}
    (framed : Framed cs above lead piece trail below)
    (window : reader.window found.file found.first (found.last + 1) =
      .ok ((first :: rest).map Token.seen))
    (known : reader.entry found.file = .ok entry)
    (least : found.startLine = .integer low) (greatest : found.endLine = .integer high)
    (here : first.start = Position.start.advance (above ++ lead))
    (there : (rest.getLastD first).stop = Position.start.advance (above ++ lead ++ piece))
    (lowLine : first.start.line = low) (highLine : (rest.getLastD first).stop.line = high) :
    ∃ hit, Search.renderFrom reader found (Utf8.encode cs) = .ok hit ∧
      hit.Displays cs first (rest.getLastD first) low high :=
  ⟨_, Search.renderFrom_eq framed window known least greatest here there,
    Hit.displays_of_framed framed here there lowLine highLine rfl rfl rfl rfl rfl⟩

theorem ends_of_run {tokens : List Token} {i width : Nat} (positive : 0 < width)
    (fits : i + width ≤ tokens.length) : ∃ first rest,
      (tokens.drop i).take width = first :: rest ∧ tokens[i]? = some first ∧
        tokens[i + width - 1]? = some (rest.getLastD first) := by
  have size : ((tokens.drop i).take width).length = width := by
    rw [List.length_take, List.length_drop]
    omega
  have each {k : Nat} (inside : k < width) :
      ((tokens.drop i).take width)[k]? = tokens[i + k]? := by
    rw [List.getElem?_take_of_lt inside, List.getElem?_drop]
  cases run : (tokens.drop i).take width with
  | nil =>
      rw [run] at size
      exact absurd size positive.ne
  | cons first rest =>
      refine ⟨first, rest, rfl, ?_, ?_⟩
      · rw [← Nat.add_zero i, ← each positive, run, List.getElem?_cons_zero]
      · have last : (first :: rest)[width - 1]? = some (rest.getLastD first) := by
          rw [run] at size
          rw [← size, ← List.getLast?_eq_getElem?, List.getLast?_cons, List.getLastD_eq_getLast?]
        rw [Nat.add_sub_assoc positive, ← each (by omega), run, last]

/-- The lines that a match tells are the line on which its first token starts and the line on which
its last token ends. -/
theorem lines_of_match {cs : List Char} {tokens : List Token}
    (complete : scan .start [] cs = ⟨tokens, none⟩) {i width : Nat} (positive : 0 < width)
    {first last : Token} {low high : Int}
    (start : tokens[i]? = some first) (stop : tokens[i + width - 1]? = some last)
    (least : (((tokens.drop i).take width).map (fun token => token.start.line)).min? = some low)
    (greatest : (((tokens.drop i).take width).map Token.lastLine).max? = some high) :
    low = first.start.line ∧ high = last.stop.line := by
  have placed {token : Token} (member : token ∈ (tokens.drop i).take width) :
      first.start.line ≤ token.start.line ∧ token.stop.line ≤ last.stop.line := by
    obtain ⟨k, held⟩ := List.getElem?_of_mem member
    have inside : k < width := by
      refine Nat.not_le.mp (fun outside => ?_)
      rw [List.getElem?_take_eq_none outside] at held
      contradiction
    rw [List.getElem?_take_of_lt inside, List.getElem?_drop] at held
    exact lines_of_run complete (by omega) (by omega) start stop held
  have among {k : Nat} {token : Token} (inside : k < width) (held : tokens[i + k]? = some token) :
      token ∈ (tokens.drop i).take width := by
    apply List.mem_of_getElem? (i := k)
    rw [List.getElem?_take_of_lt inside, List.getElem?_drop, held]
  have firstAmong := among positive start
  have lastAmong := among (k := width - 1) (by omega) (by rw [← Nat.add_sub_assoc positive, stop])
  obtain ⟨lowMem, lowLeast⟩ := List.min?_eq_some_iff.mp least
  obtain ⟨highMem, highGreatest⟩ := List.max?_eq_some_iff.mp greatest
  obtain ⟨token, member, rfl⟩ := List.mem_map.mp lowMem
  obtain ⟨other, otherMember, rfl⟩ := List.mem_map.mp highMem
  constructor
  · exact Int.le_antisymm (lowLeast _ (List.mem_map_of_mem firstAmong)) (placed member).1
  · exact Int.le_antisymm (placed otherMember).2 (highGreatest _ (List.mem_map_of_mem lastAmong))

/-- The part of a text from one of its tokens to another, with the lines that it touches. -/
theorem framed_of_run {cs : List Char} {tokens : List Token}
    (complete : scan .start [] cs = ⟨tokens, none⟩) {i j : Nat} (forward : i ≤ j)
    {first last : Token} (start : tokens[i]? = some first) (stop : tokens[j]? = some last) :
    ∃ above lead piece trail below, ∃ low high : Nat, Framed cs above lead piece trail below ∧
      first.start = Position.start.advance (above ++ lead) ∧
      last.stop = Position.start.advance (above ++ lead ++ piece) ∧
      first.start.line = low ∧ last.stop.line = high := by
  obtain ⟨before, piece, after, whole, here, there, c, ending, solid⟩ :=
    span_of_run complete forward start stop
  have filled : piece ≠ [] := by
    intro empty
    rw [empty] at ending
    contradiction
  -- no token ends in a blank, so a carriage return that is dropped stands behind the piece
  have noReturn : piece.getLast? ≠ some '\r' := by
    intro carriage
    rw [ending, Option.some.injEq] at carriage
    rw [carriage] at solid
    contradiction
  obtain ⟨above, lead, trail, below, rfl, framed⟩ := exists_framed before after filled noReturn
  rw [← whole] at framed
  have line {place : Position} {front : List Char}
      (reached : place = Position.start.advance front) :
      place.line = (1 + front.count '\n' : Nat) := by
    rw [reached, line_advance, Int.natCast_add]
    rfl
  exact ⟨above, lead, piece, trail, below, _, _, framed, here, there, line here, line there⟩

namespace Index

variable {index : Index} {number : Nat} {file : IndexedFile}

theorem entry_of_file (known : index.files[number]? = some file) :
    index.reader.entry number = .ok file.entry := by
  have listed : index.reader.entries[number]? = some file.entry := by
    rw [reader, entries, List.getElem?_map, known]
    rfl
  rw [Reader.entry, at?_natCast, listed]

theorem source_of_file (known : index.files[number]? = some file) :
    index.reader.source number = .ok file.source := by
  have opened : index.file number = .ok file := by
    rw [Index.file, at?_natCast, known]
  simp only [reader, opened, ok_bind]
  rfl

end Index

/-- A match in a file of an index, shown with the lines of that file. -/
theorem matches_displayed {previous : Option Reader} {sources : List SourceFile}
    {result : BuildResult} {query : Query} {found : List Match} {shown : Match}
    (built : buildIndex previous sources = .ok result)
    (listed : result.index.reader.matches query = .ok found) (member : shown ∈ found)
    (honest : ∀ file ∈ result.index.files, file.id = shown.file →
      Build.Honest previous ⟨file.path, file.source, file.fingerprint.modified⟩) :
    ∃ (file : IndexedFile) (cs : List Char) (first last : Token) (low high : Nat) (hit : Hit),
      file ∈ result.index.files ∧ file.id = shown.file ∧ Utf8.decode file.source = .ok cs ∧
        file.tokens[shown.first.toNat]? = some first ∧
        file.tokens[shown.last.toNat]? = some last ∧
        shown.startLine = .integer low ∧ shown.endLine = .integer high ∧
        result.index.reader.render shown = .ok hit ∧ hit.Displays cs first last low high := by
  obtain ⟨ordered, sorted⟩ := order_of_buildIndex built
  have accounts := accounts_of_buildIndex sorted built
  have presents := presents_of_buildIndex built
  obtain ⟨_, others, verifies, exact_⟩ := presents.verifies query
  cases listed.symm.trans verifies.matches_eq
  obtain ⟨number, i, stream, run, low, high, held, fits, rfl, same, least, greatest, rfl⟩ :=
    (exact_ shown).mp member
  obtain ⟨file, known, rfl⟩ := Option.map_eq_some_iff.mp (List.getElem?_map ▸ held)
  have id := accounts.dense number file known
  have inside := List.mem_of_getElem? known
  have positive := Search.width_pos query
  obtain ⟨cs, source, complete⟩ :=
    tokenize_eq_ok.mp (lexed_of_honest built inside (honest file inside id))
  obtain ⟨first, rest, split, start, stop⟩ := ends_of_run positive fits
  obtain ⟨rfl, rfl⟩ := lines_of_match complete positive start stop least greatest
  obtain ⟨above, lead, piece, trail, below, low, high, framed, here, there, lowLine, highLine⟩ :=
    framed_of_run complete (by omega) start stop
  have window : result.index.reader.window number i ((i + query.width - 1 : Int) + 1) =
      .ok ((first :: rest).map Token.seen) := by
    rw [Int.sub_add_cancel, presents.window number file.tokens _ _ held (by omega) (by omega)
      (by omega), slice_at fits, split]
  have content := Index.source_of_file known
  rw [source] at content
  rw [lowLine, highLine]
  obtain ⟨hit, rendered, displays⟩ := @renderFrom_displays _ _ _ _ _
    ⟨number, i, i + query.width - 1, .integer low, .integer high⟩ _ _ _ _ _ low high framed window
    (Index.entry_of_file known) rfl rfl here there lowLine highLine
  refine ⟨file, cs, first, rest.getLastD first, low, high, hit, inside, id, ?_, start, ?_, rfl, rfl,
    ?_, displays⟩
  · rw [source, Utf8.decode_encode]
  · have place : ((i : Int) + query.width - 1).toNat = i + query.width - 1 := by omega
    rw [← stop, ← place]
  · rw [Reader.render, content, ok_bind, rendered]

def lineQuery : Query :=
  ⟨"=\n\"é\"", [⟨.punctuator, "=", ⟨0, 1, 1⟩, ⟨1, 1, 2⟩⟩,
    ⟨.string, "\"é\"", ⟨2, 2, 1⟩, ⟨6, 2, 5⟩⟩], by simp⟩

def lineMatch : Match := ⟨0, 1, 2, .integer 1, .integer 2⟩

theorem lineMatch_displayed :
    ∃ (file : IndexedFile) (cs : List Char) (first last : Token) (low high : Nat) (hit : Hit),
      file ∈ [lineFile] ∧ file.id = 0 ∧ Utf8.decode file.source = .ok cs ∧
        file.tokens[1]? = some first ∧ file.tokens[2]? = some last ∧
        lineMatch.startLine = .integer low ∧ lineMatch.endLine = .integer high ∧
        (Index.reader ⟨[lineFile], .ofFiles [lineFile]⟩).render lineMatch = .ok hit ∧
        hit.Displays cs first last low high := by
  refine @matches_displayed none [lineSource] _ lineQuery [lineMatch] lineMatch lineSource_built
    (by rfl) List.mem_cons_self ?_
  intro file member same tokens reused
  simp [Build.reuse] at reused

/-- An index of a file that tells of a token inside a character. -/
def splitFile : IndexedFile where
  id := 0
  path := "a.c"
  fingerprint := .ofContent (Utf8.encodeString "\"é\"") none
  tokens := [⟨.string, "\"é\"", ⟨2, 1, 1⟩, ⟨4, 1, 5⟩⟩]
  source := Utf8.encodeString "\"é\""

def splitIndex : Index := ⟨[splitFile], .ofFiles [splitFile]⟩

/-- Tokens of an earlier index are taken as they are, so a match of them need not lie between
characters. -/
theorem split_not_displayed :
    buildIndex (some splitIndex.reader) [⟨"a.c", splitFile.source, none⟩] = .ok ⟨splitIndex, 1, []⟩ ∧
      ∃ query, Query.compile (.ofString "\"é\"") = .ok query ∧
        splitIndex.reader.matches query = .ok [⟨0, 0, 0, .integer 1, .integer 1⟩] ∧
        splitIndex.reader.render ⟨0, 0, 0, .integer 1, .integer 1⟩ =
          .error (.undecodable ⟨1, 0xC3, 1, .unexpectedEnd⟩) := by
  have reused : Build.reuse (some splitIndex.reader) "a.c" (.ofContent splitFile.source none) =
      .ok (.found splitFile.tokens) := by
    have printed (print : Fingerprint) (tokens : List Token) (source : Bytes) :
        (IndexedFile.entry ⟨0, "a.c", print, tokens, source⟩).isEquivalent print = true := by
      simp [FileEntry.isEquivalent, IndexedFile.entry]
    have same : splitFile.entry.isEquivalent (.ofContent splitFile.source none) = true :=
      printed _ _ _
    rw [@Build.reuse_of_complete splitIndex.reader "a.c" _ splitFile.entry
      (splitFile.tokens.map Token.seen) rfl same rfl rfl]
    rfl
  have ordered (content : Bytes) :
      Build.order [⟨"a.c", content, none⟩] = .ok [⟨"a.c", content, none⟩] :=
    Build.order_of_ascending (List.forall_mem_singleton.mpr (by decide : normalizePath "a.c" = "a.c"))
      (List.pairwise_singleton _ _)
  refine ⟨?_, ⟨"\"é\"", [⟨.string, "\"é\"", ⟨0, 1, 1⟩, ⟨4, 1, 5⟩⟩], by simp⟩, ?_, rfl, by rfl⟩
  · rw [buildIndex_of_order (ordered _), List.mapM_cons, Build.outcome, reused]
    rfl
  · exact Query.compile_ofString (by cbv) (by simp)

end TokenSearch
